import Memora.QuarantineSafety

/-! Which steps keep the invariant, and under which condition the others do. -/
namespace Memora.Quality

variable {w : Gate} {current : Candidate}

lemma mem_stageCandidate (candidateId candidateKey content : String)
    (metadata : CandidateMetadata) (sessionId : String) (source : Option SourceCorrelation)
    (rows : List Candidate) :
    stageCandidate candidateId candidateKey content metadata sessionId source rows = rows ∨
      ∃ new : Candidate, new.status = .pending ∧ (∀ c ∈ rows, c.candidateId ≠ new.candidateId) ∧
        stageCandidate candidateId candidateKey content metadata sessionId source rows = rows++[new] := by
  unfold stageCandidate
  by_cases hblank : Canonical.pythonStrip candidateKey = "" ∨ Canonical.pythonStrip content = ""
  · rw [if_pos hblank]
    exact .inl rfl
  rw [if_neg hblank]
  by_cases htaken : rows.any fun c =>
      c.candidateKey = Canonical.pythonStrip candidateKey ∨ c.candidateId = candidateId
  · rw [if_pos htaken]
    exact .inl rfl
  · rw [if_neg htaken]
    refine .inr ⟨_,rfl,?_,rfl⟩
    intro c hc hid
    exact htaken (List.any_eq_true.mpr ⟨c,hc,by simp [hid]⟩)

lemma Snapshot.mono {rows rows' : List Candidate} {s : Candidate} (h : Snapshot rows s)
    (hsub : rows ⊆ rows') : Snapshot rows' s := by
  obtain ⟨c,hc,hrest⟩ := h
  exact ⟨c,hsub hc,hrest⟩

lemma Gate.Sound.append (h : w.Sound) {new : Candidate} (hstatus : new.status = .pending)
    (hnew : ∀ c ∈ w.candidates, c.candidateId ≠ new.candidateId) :
    Gate.Sound { w with candidates := w.candidates++[new] } where
  ids := by
    rw [List.map_append,List.map_cons,List.map_nil]
    refine List.nodup_append_comm.mp (List.nodup_cons.mpr ⟨?_,h.ids⟩)
    intro hmem
    obtain ⟨c,hc,hid⟩ := List.mem_map.mp hmem
    exact hnew c hc hid
  approvals := by
    intro i a ha
    have hold := h.approvals i a ha
    have hsub : w.candidates ⊆ w.candidates++[new] := List.subset_append_left _ _
    refine ⟨?_,?_,?_,hold.wrote⟩
    · intro row hrow
      exact ⟨(hold.snapshot row hrow).1.mono hsub,(hold.snapshot row hrow).2⟩
    · intro row hrow hmem
      rcases List.mem_append.mp hmem with hmem | hmem
      · exact hold.early row hrow hmem
      · obtain ⟨c,hc,hid,-⟩ := (hold.snapshot row (Approval.row_of_unwritten hrow)).1
        rw [List.mem_singleton.mp hmem] at hid
        exact absurd hid (hnew c hc)
    · intro row hrow
      exact ⟨hsub (hold.locked row hrow).1,(hold.locked row hrow).2⟩
  repairs := by
    intro p hp
    have hold := h.repairs p hp
    exact ⟨fun c hc => (hold.snapshot c hc).mono (List.subset_append_left _ _),hold.revision⟩
  distinct := h.distinct
  owned := by
    intro m hm id hid
    obtain ⟨c,hc,hrest⟩ := h.owned m hm id hid
    exact ⟨c,List.mem_append_left _ hc,hrest⟩
  once := h.once
  approved := by
    intro c hc hdone
    rcases List.mem_append.mp hc with hc | hc
    · exact h.approved c hc hdone
    · rw [List.mem_singleton.mp hc,hstatus] at hdone
      cases hdone

lemma Names.mono {memories memories' : List CanonicalMemory} {c : Candidate}
    (h : Names memories c) (hsub : memories ⊆ memories') : Names memories' c := by
  obtain ⟨m,hm,hrest⟩ := h
  exact ⟨m,hsub hm,hrest⟩

theorem Gate.Sound.addsMemory (h : w.Sound) {m : CanonicalMemory}
    (hm : ∀ id, m.candidateId = some id →
      (∃ c ∈ w.candidates, c.candidateId = id ∧ (c.status = .approving ∨ c.status = .approved)) ∧
      Unwritten w.memories id ∧
      ∀ (i : ℕ) (a : Approval) (row : Candidate), w.approvals[i]? = some a →
        a.unwritten? = some row → row ∈ w.candidates → row.candidateId ≠ id) :
    Gate.Sound { w with memories := w.memories++[m] } where
  ids := h.ids
  approvals := by
    intro i a ha
    have hold := h.approvals i a ha
    refine ⟨hold.snapshot,?_,hold.locked,?_⟩
    · intro row hrow hmem other hother hid
      rcases List.mem_append.mp hother with hother | hother
      · exact hold.early row hrow hmem other hother hid
      · rw [List.mem_singleton.mp hother] at hid
        exact (hm _ hid).2.2 i a row ha hrow hmem rfl
    · intro row memoryId hrow
      obtain ⟨other,hother,hrest⟩ := hold.wrote row memoryId hrow
      exact ⟨other,List.mem_append_left _ hother,hrest⟩
  repairs := h.repairs
  distinct := h.distinct
  owned := by
    intro other hother id hid
    rcases List.mem_append.mp hother with hother | hother
    · exact h.owned other hother id hid
    · rw [List.mem_singleton.mp hother] at hid
      exact (hm id hid).1
  once := by
    intro id
    have hone := h.once id
    rw [List.countP_append,List.countP_singleton]
    by_cases hid : m.candidateId = some id
    · have hnone : w.memories.countP (fun m => m.candidateId = some id) = 0 := by
        rw [List.countP_eq_zero]
        intro other hother
        simpa using (hm id hid).2.1 other hother
      rw [hnone,if_pos (by simpa using hid)]
    · rw [if_neg (by simpa using hid)]
      exact hone
  approved := fun c hc hdone => (h.approved c hc hdone).mono (List.subset_append_left _ _)

lemma Gate.Sound.holder_unique (h : w.Sound) {i j : ℕ} {a b : Approval} {row other : Candidate}
    (ha : w.approvals[i]? = some a) (hb : w.approvals[j]? = some b) (hrow : a.holds = some row)
    (hother : b.row? = some other) (hmem : other ∈ w.candidates)
    (hid : row.candidateId = other.candidateId) : i = j := by
  have hlocked := ((h.approvals i a ha).locked row hrow).1
  obtain rfl := RowTable.eq_of_key_eq h.ids hlocked hmem hid
  exact h.distinct i j a b row row ha hb (Approval.row_of_holds hrow) hother rfl rfl

lemma Gate.Sound.idle (h : w.Sound) {id : String} (hrow : rowOf w.candidates id = some current)
    (hstatus : current.status = .pending ∨ current.status = .blocked) :
    w.Unheld id ∧ Unwritten w.memories id := by
  obtain ⟨hmem,hid⟩ := rowOf_mem hrow
  constructor
  · intro i a row ha hholds hsame
    have hlocked := ((h.approvals i a ha).locked row hholds).1
    have happroving := ((h.approvals i a ha).snapshot row (Approval.row_of_holds hholds)).2
    obtain rfl := RowTable.eq_of_key_eq h.ids hlocked hmem (hsame.trans hid.symm)
    rcases hstatus with hstatus | hstatus <;> rw [hstatus] at happroving <;> cases happroving
  · intro m hm hown
    obtain ⟨c,hc,hcid,hbusy⟩ := h.owned m hm id hown
    obtain rfl := RowTable.eq_of_key_eq h.ids hc hmem (hcid.trans hid.symm)
    rcases hstatus with hstatus | hstatus <;> rw [hstatus] at hbusy <;> simp at hbusy

lemma Gate.Sound.claim (h : w.Sound) (i : ℕ) (tokenHash : String) :
    (w.claim i tokenHash).Sound := by
  unfold Gate.claim
  cases ha : w.approvals[i]? with
  | none => exact h
  | some a =>
    cases a with
    | loaded current expectedRevision content =>
      dsimp only
      cases corrected current content with
      | error message => exact h.endApproval i
      | ok pair =>
        dsimp only
        have heffect := transition_effect current.candidateId
          (claimApproval expectedRevision tokenHash pair.1 pair.2) w.candidates
        cases hresult : transition current.candidateId
            (claimApproval expectedRevision tokenHash pair.1 pair.2) w.candidates with
        | error message => exact h.endApproval i
        | ok result =>
          rw [hresult] at heffect
          cases heffect with
          | unchanged found hrow hstatus hterminal =>
            rw [hstatus] at hterminal
            cases hterminal
          | changed found hrow hopen hrevision hallowed htoken =>
            have hstatus : found.status = .pending ∨ found.status = .blocked := by
              simpa [claimApproval] using hallowed
            obtain ⟨hfree,hunwritten⟩ := h.idle hrow hstatus
            obtain ⟨hmem,hid⟩ := rowOf_mem hrow
            refine (h.change hrow hfree (fun hnot => absurd rfl hnot)
              (fun happroved => by cases happroved)).setApproval ?_ ?_
            · refine ⟨?_,?_,(fun row hrow => by cases hrow), (fun row memoryId hrow => by cases hrow)⟩
              · intro row hclaimed
                cases hclaimed
                exact ⟨⟨_,updated_mem hrow,rfl,rfl,le_rfl,fun _ => rfl⟩,rfl⟩
              · intro row hclaimed _
                cases hclaimed
                have hsame : ((claimApproval expectedRevision tokenHash pair.1 pair.2).updated
                    found).candidateId = current.candidateId := hid
                rw [hsame]
                exact hunwritten
            · intro j b row other hj hb hclaimed hother hsame hrevision'
              cases hclaimed
              obtain ⟨⟨c,hc,hcid,-,hle,-⟩,-⟩ := (h.approvals j b hb).snapshot other hother
              obtain rfl := RowTable.eq_of_key_eq h.ids hc hmem (hcid.trans hsame.symm)
              have hnext : ((claimApproval expectedRevision tokenHash pair.1 pair.2).updated
                  c).revision = c.revision+1 := rfl
              omega
    | _ => exact h

lemma Gate.Sound.block (h : w.Sound) (i : ℕ) (reasonCode : String) :
    (w.block i reasonCode).Sound := by
  unfold Gate.block
  cases ha : w.approvals[i]? with
  | none => exact h
  | some a =>
    cases a with
    | claimed row =>
      refine Gate.Sound.endApproval (h.transact ?_) i
      intro current hrow hopen hrevision hallowed
      have hsound := h.approvals i _ ha
      have hsame := (hsound.snapshot row rfl).1.eq_row h.ids hrow hrevision
      have hmem : row ∈ w.candidates := hsame ▸ (rowOf_mem hrow).1
      refine ⟨?_,fun _ _ => hsound.early row rfl hmem,fun happroved => by cases happroved⟩
      intro j b other hb hholds hid
      obtain rfl := h.holder_unique hb ha hholds rfl hmem hid
      rw [ha] at hb
      cases hb
      cases hholds
    | _ => exact h

lemma Gate.Sound.beginWrite (h : w.Sound) {i : ℕ}
    (hfenced : ∀ row, w.approvals[i]? = some (.claimed row) →
      (w.lockFree row.sessionId && row.source.isSome) = true →
        ∃ c, rowOf w.candidates row.candidateId = some c ∧ c.revision = row.revision) :
    (w.beginWrite i).Sound := by
  unfold Gate.beginWrite
  cases ha : w.approvals[i]? with
  | none => exact h
  | some a =>
    cases a with
    | claimed row =>
      dsimp only
      by_cases hready : (w.lockFree row.sessionId && row.source.isSome) = true
      · rw [if_pos hready]
        have hsource := (Bool.and_eq_true_iff.mp hready).2
        have hsound := h.approvals i _ ha
        obtain ⟨c,hrow,hrevision⟩ := hfenced row ha hready
        have hsame := (hsound.snapshot row rfl).1.eq_row h.ids hrow hrevision
        refine h.moveApproval ha rfl rfl ⟨hsound.snapshot,hsound.early,?_,?_⟩
        · intro other hother
          cases hother
          exact ⟨hsame ▸ (rowOf_mem hrow).1,hsource⟩
        · intro other memoryId hother
          cases hother
      · rw [if_neg hready]
        exact h
    | _ => exact h

lemma addMemory_cases (memory : CanonicalMemory) (memories : List CanonicalMemory) :
    (∃ owner ∈ memories, memory.idempotencyKey ≠ "" ∧ owner.idempotencyKey = memory.idempotencyKey ∧
        addMemory memory memories = (memories,owner.memoryId)) ∨
      addMemory memory memories = (memories++[{ memory with memoryId := freshMemoryId memories }],
          freshMemoryId memories) := by
  unfold addMemory
  cases howner : memories.find? fun m =>
      memory.idempotencyKey ≠ "" && m.idempotencyKey = memory.idempotencyKey with
  | none => exact .inr rfl
  | some owner =>
    have hfound := List.find?_some howner
    simp only [ne_eq,Bool.and_eq_true,decide_eq_true_eq] at hfound
    exact .inl ⟨owner,List.mem_of_find?_eq_some howner,hfound.1,hfound.2,rfl⟩

lemma Gate.Sound.commits (h : w.Sound) {i : ℕ}
    (hkey : ∀ row, w.approvals[i]? = some (.writing row none) →
      (approvedMemory row).idempotencyKey ≠ "" → ∀ m ∈ w.memories,
        m.idempotencyKey = (approvedMemory row).idempotencyKey →
          m.content = row.content ∧ m.source = row.source) :
    (w.commits i).Sound := by
  unfold Gate.commits
  cases ha : w.approvals[i]? with
  | none => exact h
  | some a =>
    cases a with
    | writing row written =>
      cases written with
      | none =>
        have hsound := h.approvals i _ ha
        obtain ⟨hmem,hsource⟩ := hsound.locked row rfl
        have hstatus := (hsound.snapshot row rfl).2
        have hnext : ∀ memoryId, ∀ m ∈ (addMemory (approvedMemory row) w.memories).1,
            m.memoryId = memoryId → m.content = row.content → m.source = row.source →
              Approval.Sound w.candidates (addMemory (approvedMemory row) w.memories).1
                (.writing row (some memoryId)) := by
          intro memoryId m hm hid hcontent hmsource
          refine ⟨?_,(fun other hother => by cases hother),?_,?_⟩
          · intro other hother
            cases hother
            exact hsound.snapshot row rfl
          · intro other hother
            cases hother
            exact ⟨hmem,hsource⟩
          · intro other otherId hother
            cases hother
            exact ⟨m,hm,hid,hcontent,hmsource⟩
        dsimp only
        rcases addMemory_cases (approvedMemory row) w.memories with
          ⟨owner,howner,hused,hsame,hadd⟩ | hadd
        · rw [hadd] at hnext ⊢
          obtain ⟨hcontent,hmsource⟩ := hkey row ha hused owner howner hsame
          exact h.moveApproval ha rfl rfl (hnext _ owner howner rfl hcontent hmsource)
        · rw [hadd] at hnext ⊢
          -- the approval steps aside while its memory is added
          have hadded : Gate.Sound { w.setApproval i .ended with memories := w.memories ++
              [{ approvedMemory row with memoryId := freshMemoryId w.memories }] } := by
            refine (h.endApproval i).addsMemory ?_
            intro id hid
            cases hid
            refine ⟨⟨row,hmem,rfl,.inl hstatus⟩,hsound.early row rfl hmem,?_⟩
            intro j b other hb hother hothermem hsame
            rcases getElem?_set_cases hb with ⟨-,rfl⟩ | ⟨hj,hb⟩
            · cases hother
            · exact hj (h.holder_unique ha hb rfl (Approval.row_of_unwritten hother) hothermem hsame.symm).symm
          have hmoved := hadded.setApproval (hnext _ _
            (List.mem_append_right _ (List.mem_singleton_self _)) rfl rfl rfl) (i := i) ?_
          · simpa [Gate.setApproval] using hmoved
          · intro j b other kept hj hb hother hkept hsame hrevision
            cases hother
            rcases getElem?_set_cases hb with ⟨hji,-⟩ | ⟨-,hb⟩
            · exact hj hji
            · exact hj (h.distinct i j _ b row kept ha hb rfl hkept hsame hrevision).symm
      | some memoryId => exact h
    | _ => exact h

lemma Gate.Sound.returns (h : w.Sound) (i : ℕ) : (w.returns i).Sound := by
  unfold Gate.returns
  cases ha : w.approvals[i]? with
  | none => exact h
  | some a =>
    cases a with
    | writing row written =>
      cases written with
      | none => exact h
      | some memoryId =>
        have hsound := h.approvals i _ ha
        exact h.moveApproval ha rfl rfl
          ⟨hsound.snapshot,(fun other hother => by cases hother),hsound.locked,hsound.wrote⟩
    | _ => exact h

lemma transact_setApproval (w : Gate) (i : ℕ) (next : Approval) (id : String) (t : Transition) :
    (w.transact id t).setApproval i next = (w.setApproval i next).transact id t := by
  unfold Gate.transact
  cases hresult : transition id t w.candidates with
  | error | ok => simp [Gate.setApproval,hresult]

lemma Gate.Sound.finalize (h : w.Sound) (i : ℕ) : (w.finalize i).Sound := by
  unfold Gate.finalize
  cases ha : w.approvals[i]? with
  | none => exact h
  | some a =>
    cases a with
    | returned row memoryId =>
      dsimp only
      rw [transact_setApproval]
      refine (h.endApproval i).transact ?_
      intro current hrow hopen hrevision hallowed
      have hsound := h.approvals i _ ha
      obtain ⟨hmem,hsource⟩ := hsound.locked row rfl
      have hsame := (hsound.snapshot row rfl).1.eq_row h.ids hrow hrevision
      refine ⟨?_,fun _ hnot => absurd rfl hnot,?_⟩
      · intro j b other hb hholds hid
        rcases getElem?_set_cases hb with ⟨-,rfl⟩ | ⟨hj,hb⟩
        · cases hholds
        · exact hj (h.holder_unique hb ha hholds rfl hmem hid)
      · intro _
        obtain ⟨m,hm,hmid,hcontent,hmsource⟩ := hsound.wrote row memoryId rfl
        subst hsame
        exact ⟨m,hm,congrArg some hmid.symm,hcontent,hsource,hmsource⟩
    | _ => exact h

lemma Gate.Sound.crash (h : w.Sound) : w.crash.Sound where
  ids := h.ids
  approvals := by
    intro i a ha
    obtain ⟨b,-,rfl⟩ := List.mem_map.mp (List.mem_of_getElem? ha)
    exact Approval.sound_of_none rfl
  repairs := by
    intro p hp
    obtain ⟨q,-,rfl⟩ := List.mem_map.mp hp
    exact Repair.sound_ended
  distinct := by
    intro i j a b row other ha hb hrow
    obtain ⟨c,-,rfl⟩ := List.mem_map.mp (List.mem_of_getElem? ha)
    cases hrow
  owned := h.owned
  once := h.once
  approved := h.approved

lemma Gate.Sound.appendRepair (h : w.Sound) {p : Repair} (hp : p.Sound w.candidates) :
    Gate.Sound { w with repairs := w.repairs++[p] } where
  ids := h.ids
  approvals := h.approvals
  repairs := by
    intro q hq
    rcases List.mem_append.mp hq with hq | hq
    · exact h.repairs q hq
    · rw [List.mem_singleton.mp hq]
      exact hp
  distinct := h.distinct
  owned := h.owned
  once := h.once
  approved := h.approved

lemma snapshot_of_rowOf {rows : List Candidate} {id : String}
    (hrow : rowOf rows id = some current) : Snapshot rows current :=
  ⟨current,(rowOf_mem hrow).1,rfl,rfl,le_rfl,fun _ => rfl⟩

theorem Gate.Sound.not_held (h : w.Sound)
    (hsnapshot : Snapshot w.candidates current) (hfree : w.lockFree current.sessionId = true) :
    w.Unheld current.candidateId := by
  intro i a row ha hholds hid
  obtain ⟨c,hc,hcid,hsession,-⟩ := hsnapshot
  have hlocked := ((h.approvals i a ha).locked row hholds).1
  obtain rfl := RowTable.eq_of_key_eq h.ids hlocked hc (hid.trans hcid.symm)
  have hother := List.all_eq_true.mp hfree a (List.mem_of_getElem? ha)
  rw [hholds] at hother
  simp [hsession] at hother

lemma Gate.Sound.finishBlocked (h : w.Sound) {j : ℕ} (habsent : ∀ current expectedRevision found,
      w.repairs[j]? = some (.blocking current expectedRevision) →
        w.lockFree current.sessionId = true → rowOf w.candidates current.candidateId = some found →
          found.status = .approving → found.revision = expectedRevision →
            Unwritten w.memories current.candidateId) : (w.finishBlocked j).Sound := by
  unfold Gate.finishBlocked
  cases hp : w.repairs[j]? with
  | none => exact h
  | some p =>
    cases p with
    | blocking current expectedRevision =>
      dsimp only
      by_cases hfree : w.lockFree current.sessionId = true
      · rw [if_pos hfree]
        have hsnapshot := (h.repairs _ (List.mem_of_getElem? hp)).snapshot current rfl
        refine Gate.Sound.endRepair (h.transact ?_) j
        intro found hrow hopen hrevision hallowed
        have happroving : found.status = .approving := by simpa [blockApproval] using hallowed
        exact ⟨h.not_held hsnapshot hfree,
          fun _ _ => habsent current expectedRevision found hp hfree hrow happroving hrevision,
          fun happroved => by cases happroved⟩
      · rw [if_neg hfree]
        exact h
    | _ => exact h

lemma Gate.Sound.finishApproval (h : w.Sound) (j : ℕ) : (w.finishApproval j).Sound := by
  unfold Gate.finishApproval
  cases hp : w.repairs[j]? with
  | none => exact h
  | some p =>
    cases p with
    | approving current expectedRevision memoryId tokenHash =>
      dsimp only
      by_cases hfree : w.lockFree current.sessionId = true
      · rw [if_pos hfree]
        cases hm : w.memories.find? fun m => m.memoryId = memoryId with
        | none => exact h.endRepair j
        | some m =>
          dsimp only
          by_cases hcorrelates : correlates current tokenHash m = true
          · rw [if_pos hcorrelates]
            have hrepair := h.repairs _ (List.mem_of_getElem? hp)
            have hsnapshot := hrepair.snapshot current rfl
            have hexpected := hrepair.revision current expectedRevision memoryId tokenHash rfl
            refine Gate.Sound.endRepair (h.transact ?_) j
            intro found hrow hopen hrevision hallowed
            have hsame := hsnapshot.eq_row h.ids hrow (hrevision.trans hexpected.symm)
            refine ⟨h.not_held hsnapshot hfree,fun _ hnot => absurd rfl hnot,fun _ => ?_⟩
            have hmid : m.memoryId = memoryId := by simpa using List.find?_some hm
            simp only [correlates,Bool.and_eq_true,beq_iff_eq] at hcorrelates
            obtain ⟨⟨⟨⟨⟨⟨⟨hsource,hmsource⟩,-⟩,-⟩,-⟩,-⟩,-⟩,hcontent⟩ := hcorrelates
            subst hsame
            exact ⟨m,List.mem_of_find?_eq_some hm,congrArg some hmid.symm,hcontent,hsource, hmsource⟩
          · rw [if_neg hcorrelates]
            exact h.endRepair j
      · rw [if_neg hfree]
        exact h
    | _ => exact h

lemma Gate.Sound.reject (h : w.Sound) (id : String) (expectedRevision : ℤ) :
    (w.transact id (rejectCandidate expectedRevision)).Sound := by
  refine h.transact ?_
  intro current hrow hopen hrevision hallowed
  have hstatus : current.status = .pending ∨ current.status = .blocked := by
    simpa [rejectCandidate] using hallowed
  obtain ⟨hfree,hunwritten⟩ := h.idle hrow hstatus
  exact ⟨hfree,fun _ _ => hunwritten,fun happroved => by cases happroved⟩

lemma Gate.Sound.otherWrite (h : w.Sound) (content idempotencyKey : String)
    (source : Option SourceCorrelation) : (w.otherWrite content idempotencyKey source).Sound := by
  unfold Gate.otherWrite addMemory
  split
  · exact h
  · exact h.addsMemory fun id hid => by cases hid

lemma Gate.Sound.approve (h : w.Sound) (id : String) (expectedRevision : ℤ)
    (content : Option String) : (w.approve id expectedRevision content).Sound := by
  unfold Gate.approve
  cases rowOf w.candidates id with
  | none => exact h
  | some current =>
    dsimp only
    by_cases happroved : current.status = .approved
    · rw [if_pos happroved]
      exact h
    rw [if_neg happroved]
    cases corrected current content with
    | error message => exact h
    | ok pair =>
      have hcases : ∀ (i : ℕ) (a : Approval),
          (w.approvals++[.loaded current expectedRevision content])[i]? = some a →
          w.approvals[i]? = some a ∨ a = .loaded current expectedRevision content := by
        intro i a ha
        rcases Nat.lt_or_ge i w.approvals.length with hlt | hge
        · rw [List.getElem?_append_left hlt] at ha
          exact .inl ha
        · rw [List.getElem?_append_right hge] at ha
          exact .inr (List.mem_singleton.mp (List.mem_of_getElem? ha))
      exact {
        ids := h.ids
        approvals := by
          intro i a ha
          rcases hcases i a ha with ha | rfl
          · exact h.approvals i a ha
          · exact Approval.sound_of_none rfl
        repairs := h.repairs
        distinct := by
          intro i j a b row other ha hb hrow hother
          rcases hcases i a ha with ha | rfl
          · rcases hcases j b hb with hb | rfl
            · exact h.distinct i j a b row other ha hb hrow hother
            · cases hother
          · cases hrow
        owned := h.owned
        once := h.once
        approved := h.approved }

end Memora.Quality
