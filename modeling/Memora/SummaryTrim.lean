import Memora.SummaryClosed
import Memora.SummaryRotation

/-! Only new messages and the deletions change the stored messages, so identifiers stay unique and
sequence numbers positive. What a trim deletes lies in closed windows of the current epoch. -/
namespace Memora.Summary
open RowTable RangeChain

variable {env : Env} {s t : Store} {session : String}

lemma Store.claimReady_messages (env : Env) (s : Store) (req : ClaimRequest)
    (tokens : String → String) (stamp : Time) :
    (s.claimReady env req tokens stamp).1.messages = s.messages ∧
      (s.claimReady env req tokens stamp).1.nextMessageId = s.nextMessageId := by
  have hrows := Store.claimRows_outside env req stamp tokens (s.activeIn stamp)
    (req.globalLimit.map fun g : ℤ => (g - ((s.active stamp).length : ℤ)).toNat)
    (s.readyJobs req stamp) s []
  unfold Store.claimReady
  split
  · exact ⟨rfl,rfl⟩
  · simp only
    split
    · exact ⟨congrArg (·.1) hrows,congrArg (·.2.1) hrows⟩
    · exact ⟨congrArg (·.1) hrows,congrArg (·.2.1) hrows⟩

structure Numbered (s : Store) : Prop where
  ids : (s.messages.map Message.id).Nodup
  below : ∀ m ∈ s.messages, m.id < s.nextMessageId
  seqs : ∀ m ∈ s.messages, ∃ q, m.messageSeq = some q ∧ 0 < q

lemma Numbered.empty : Numbered Store.empty := by
  constructor <;> simp [Store.empty]

lemma Numbered.sublist (h : Numbered s) (hm : t.messages.Sublist s.messages)
    (hn : t.nextMessageId = s.nextMessageId) : Numbered t := by
  refine ⟨h.ids.sublist (hm.map _),?_,fun m hmem => h.seqs m (hm.subset hmem)⟩
  intro m hmem
  rw [hn]
  exact h.below m (hm.subset hmem)

lemma Numbered.of_outside (h : Numbered s) (houtside : t.outside = s.outside) : Numbered t :=
  h.sublist ((congrArg (·.1) houtside : t.messages = s.messages) ▸ List.Sublist.refl _)
    (congrArg (·.2.1) houtside)

lemma Numbered.addMessage (h : Numbered s) (m : MessageInput) (now : Time) :
    Numbered (s.addMessage m now).1 := by
  refine ⟨?_,?_,?_⟩
  · change ((s.messages++[_]).map Message.id).Nodup
    rw [List.map_append,List.nodup_append]
    refine ⟨h.ids,by simp,?_⟩
    intro a ha b hb
    obtain ⟨x,hx,rfl⟩ := List.mem_map.mp ha
    obtain rfl : b = s.nextMessageId := by simpa using hb
    have := h.below x hx
    omega
  · intro x hx
    change x.id < s.nextMessageId+1
    rcases List.mem_append.mp hx with hx | hx
    · have := h.below x hx
      omega
    · rw [List.mem_singleton.mp hx]
      simp only
      omega
  · intro x hx
    rcases List.mem_append.mp hx with hx | hx
    · exact h.seqs x hx
    · rw [List.mem_singleton.mp hx]
      exact ⟨_,rfl,Nat.succ_pos _⟩

lemma Numbered.step (h : Numbered s) (env : Env) (call : Call) : Numbered (step env s call) := by
  by_cases haside : call.op.aside = true
  · exact h.of_outside (step_outside env s haside)
  unfold Memora.Summary.step
  cases hop : call.op with
  | addMessage => exact h.addMessage ..
  | claimReady req tokens =>
    obtain ⟨hm,hn⟩ := s.claimReady_messages env req tokens call.now
    exact h.sublist (hm ▸ List.Sublist.refl _) hn
  | clearSessionAtomically session quarantined =>
    dsimp only
    unfold Store.clearSessionAtomically
    split
    · exact h
    · have hs : Numbered (s.ensureEpoch session call.now).1 := h.of_outside (s.ensureEpoch_outside ..)
      exact hs.sublist List.filter_sublist rfl
  | deleteOldSessions days ttl guarded =>
    dsimp only
    unfold Store.deleteOldSessions
    simp only
    generalize call.now - _ = cutoff
    split
    · exact h
    · exact h.sublist List.filter_sublist rfl
  | trimIfSafe =>
    dsimp only
    unfold Store.trimIfSafe
    split
    · exact h
    · exact h.sublist List.filter_sublist rfl
  | _ => simp [hop,Op.aside] at haside

lemma Numbered.run (env : Env) (calls : List Call) : Numbered (run env Store.empty calls) :=
  RunLaws.foldl_invariant (fun _ call h => h.step env call) Numbered.empty calls

def LedgerComplete (j : Job) (rows : List Candidate) : Prop :=
  (∀ c ∈ rows, c.malformed = false) ∧ terminalLedgerMatchesJob j rows = true

def Job.covers (j : Job) (m : Message) : Prop :=
  j.sessionId = m.sessionId ∧ ∃ q, m.messageSeq = some q ∧ j.startSeq < q ∧ q ≤ j.endSeq

lemma ledgerComplete_of_free {epoch : ℕ} {j : Job}
    (hfree : s.ledgerBlocksTrim session epoch = false) (hj : j ∈ s.epochJobs session epoch)
    (hclosed : j.status.terminal = true) : LedgerComplete j (s.slots j.jobId) := by
  simp only [Store.ledgerBlocksTrim,Bool.or_eq_false_iff,List.any_eq_false] at hfree
  obtain ⟨⟨⟨-,hmalformed⟩,-⟩,hcounts⟩ := hfree
  have hshape := hmalformed j hj
  have hcount := hcounts j hj
  simp only [malformedBlocks,countBlocks,hclosed,Bool.true_and,List.any_eq_true,not_exists,
    not_and,Bool.not_eq_true,Bool.or_eq_true,not_or,decide_eq_true_eq,not_not,
    Bool.not_eq_eq_eq_not,Bool.not_true,decide_eq_false_iff_not] at hshape hcount
  refine ⟨hshape,?_⟩
  have hdisposed : ∀ c ∈ s.slots j.jobId, c.disposition.isSome = true := by
    intro c hc
    have hnot := hshape c hc
    unfold Candidate.malformed at hnot
    cases hd : c.disposition with
    | none => simp [hd] at hnot
    | some d => rfl
  simp only [terminalLedgerMatchesJob,Bool.and_eq_true,List.all_eq_true,decide_eq_true_eq]
  exact ⟨⟨hdisposed,hcount.1⟩,hcount.2⟩

structure Summarised (s : Store) (m : Message) : Prop where
  passed : ∃ q, m.messageSeq = some q ∧ q ≤ (s.getSummaryEpoch m.sessionId).2
  window : ∃ j ∈ s.epochJobs m.sessionId (s.getSummaryEpoch m.sessionId).1, j.covers m
  closed : ∀ j ∈ s.epochJobs m.sessionId (s.getSummaryEpoch m.sessionId).1,
    j.status.open = false ∧ j.status.terminal = true ∧ LedgerComplete j (s.slots j.jobId)

lemma Chained.covers {m : Message} {q : ℕ} (h : Chained s session)
    (hsession : m.sessionId = session) (hq : m.messageSeq = some q) (hpos : 0 < q)
    (hle : q ≤ (s.getSummaryEpoch session).2) :
    ∃ j ∈ s.epochJobs session (s.getSummaryEpoch session).1, j.covers m := by
  obtain ⟨frontier,htiles⟩ := h.tiles
  have hfrontier : (s.getSummaryEpoch session).2 ≤ frontier := by
    rcases h.boundary with hzero | ⟨r,hr,hend⟩
    · omega
    · rw [← hend]
      exact (htiles.bounds hr).2.2
  obtain ⟨r,hr,hlow,hhigh⟩ := htiles.cover (x := q - 1) (Nat.zero_le _) (by omega)
  obtain ⟨j,hj,rfl⟩ := List.mem_map.mp hr
  have hj' := (List.mem_filter.mp hj).2
  simp only [Bool.and_eq_true,decide_eq_true_eq] at hj'
  simp only [Job.range] at hlow hhigh
  exact ⟨j,hj,hj'.1.trans hsession.symm,q,hq,by omega,by omega⟩

lemma current_of_cursorAt (hk : Keyed s) {epoch : ℕ} (hpos : 0 < s.cursorAt session epoch) :
    s.getSummaryEpoch session = (epoch,s.cursorAt session epoch) := by
  unfold Store.cursorAt at hpos ⊢
  cases he : s.epochs.find? fun e => e.sessionId = session && e.epoch = epoch with
  | none =>
    rw [he] at hpos
    exact absurd hpos (lt_irrefl 0)
  | some e =>
    have hkey := List.find?_some he
    simp only [Bool.and_eq_true,decide_eq_true_eq] at hkey
    obtain ⟨rfl,rfl⟩ := hkey
    have hrow : s.epochRow? e.sessionId = some e := find?_key hk.epochs (List.mem_of_find?_eq_some he)
    simp [Store.getSummaryEpoch,hrow]

/-- In every reachable store a trim deletes only messages of its session that are summarised. -/
theorem trim_deletes_summarised (env : Env) (calls : List Call) (session : String) (epoch : ℕ)
    (deleteCount : ℤ) (quarantined : Bool) (m : Message)
    (hm : m ∈ (run env Store.empty calls).messages)
    (hgone : m ∉ ((run env Store.empty calls).trimIfSafe session epoch deleteCount quarantined).1.messages) :
    m.sessionId = session ∧ ((run env Store.empty calls).getSummaryEpoch session).1 = epoch ∧
      Summarised (run env Store.empty calls) m := by
  have hsound := Sound.empty.run env calls
  have hnumbered := Numbered.run env calls
  generalize run env Store.empty calls = s at *
  unfold Store.trimIfSafe at hgone
  split at hgone
  · exact absurd hm hgone
  rename_i hallowed
  simp only [Bool.or_eq_true,decide_eq_true_eq,not_or,Bool.not_eq_true] at hallowed
  have hfree := hallowed.2
  simp only [Store.hasTrimBlocker,Bool.or_eq_false_iff,List.any_eq_false] at hfree
  obtain ⟨⟨hopen,-⟩,hledger⟩ := hfree
  -- the deleted identifiers belong to the victims alone
  have hvictim : m ∈ s.trimVictims session epoch deleteCount.toNat := by
    have hid : m.id ∈ (s.trimVictims session epoch deleteCount.toNat).map Message.id := by
      by_contra hno
      exact hgone (List.mem_filter.mpr ⟨hm,by simpa using hno⟩)
    obtain ⟨v,hv,hvid⟩ := List.mem_map.mp hid
    have hstored : v ∈ s.messages := by
      have hsorted := List.mem_of_mem_take hv
      rw [List.mem_insertionSort] at hsorted
      exact List.mem_of_mem_filter (List.mem_of_mem_filter hsorted)
    rwa [List.inj_on_of_nodup_map hnumbered.ids hstored hm hvid] at hv
  have hselected := List.mem_of_mem_take hvictim
  rw [List.mem_insertionSort,List.mem_filter,Store.sessionMessages,List.mem_filter] at hselected
  obtain ⟨⟨-,hsession⟩,hle⟩ := hselected
  rw [decide_eq_true_eq] at hsession
  obtain ⟨q,hq,hpos⟩ := hnumbered.seqs m hm
  rw [hq] at hle
  have hle : q ≤ s.cursorAt session epoch := by simpa using hle
  have hcurrent := current_of_cursorAt hsound.keyed (lt_of_lt_of_le hpos hle)
  have hepoch : (s.getSummaryEpoch session).1 = epoch := by rw [hcurrent]
  have hcursor : q ≤ (s.getSummaryEpoch session).2 := by rw [hcurrent]; exact hle
  refine ⟨hsession,hepoch,⟨q,hq,hsession ▸ hcursor⟩,?_,?_⟩
  · rw [hsession]
    exact (hsound.chained session).covers hsession hq hpos hcursor
  · intro j hj
    rw [hsession,hepoch] at hj
    have hclosed : j.status.open = false := by simpa using hopen j hj
    have hterminal : j.status.terminal = true := by
      cases hstatus : j.status <;> rw [hstatus] at hclosed <;> first | rfl | cases hclosed
    exact ⟨hclosed,hterminal,ledgerComplete_of_free hledger hj hterminal⟩

theorem trim_deletes_summarised_sample :
    ∃ m ∈ (run sampleEnv Store.empty (quarantinedCalls 0)).messages,
      m ∉ ((run sampleEnv Store.empty (quarantinedCalls 0)).trimIfSafe "a" 1 5 false).1.messages ∧
      Summarised (run sampleEnv Store.empty (quarantinedCalls 0)) m := by
  obtain ⟨m,hm,hgone⟩ : ∃ m ∈ (run sampleEnv Store.empty (quarantinedCalls 0)).messages,
      m ∉ ((run sampleEnv Store.empty (quarantinedCalls 0)).trimIfSafe "a" 1 5 false).1.messages := by
    decide +kernel
  exact ⟨m,hm,hgone,(trim_deletes_summarised sampleEnv _ "a" 1 5 false m hm hgone).2.2⟩

end Memora.Summary
