import Memora.QuarantineGate

/-! A claim fences the row of its candidate until the row changes again; the invariant says what the
memories of a candidate are at each of its statuses. -/
namespace Memora.Quality

variable {rows : List Candidate} {memories : List CanonicalMemory} {w : Gate} {row : Candidate}
    {a : Approval}

def Snapshot (rows : List Candidate) (s : Candidate) : Prop :=
  ∃ c ∈ rows, c.candidateId = s.candidateId ∧ c.sessionId = s.sessionId ∧
    s.revision ≤ c.revision ∧ (s.revision = c.revision → s = c)

def Names (memories : List CanonicalMemory) (c : Candidate) : Prop :=
  ∃ m ∈ memories, c.canonicalMemoryId = some m.memoryId ∧ m.content = c.content ∧
    c.source.isSome = true ∧ m.source = c.source

def Unwritten (memories : List CanonicalMemory) (candidateId : String) : Prop :=
  ∀ m ∈ memories, m.candidateId ≠ some candidateId

namespace Approval

def unwritten? : Approval → Option Candidate
  | .claimed row | .writing row none => some row
  | _ => none

def written? : Approval → Option (Candidate × ℕ)
  | .writing row (some memoryId) | .returned row memoryId => some (row,memoryId)
  | _ => none

structure Sound (rows : List Candidate) (memories : List CanonicalMemory) (a : Approval) :
    Prop where
  snapshot : ∀ row, a.row? = some row → Snapshot rows row ∧ row.status = .approving
  early : ∀ row, a.unwritten? = some row → row ∈ rows → Unwritten memories row.candidateId
  locked : ∀ row, a.holds = some row → row ∈ rows ∧ row.source.isSome = true
  wrote : ∀ row memoryId, a.written? = some (row,memoryId) →
    ∃ m ∈ memories, m.memoryId = memoryId ∧ m.content = row.content ∧ m.source = row.source

lemma row_of_holds (h : a.holds = some row) : a.row? = some row := by
  cases a <;> first | exact h | cases h

lemma row_of_unwritten (h : a.unwritten? = some row) : a.row? = some row := by
  cases a with
  | claimed claimed => exact h
  | writing writing written => cases written <;> first | exact h | cases h
  | _ => cases h

lemma sound_of_none (h : a.row? = none) : a.Sound rows memories where
  snapshot := fun row hrow => by rw [h] at hrow; cases hrow
  early := fun row hrow => by rw [row_of_unwritten hrow] at h; cases h
  locked := fun row hrow => by rw [row_of_holds hrow] at h; cases h
  wrote := by
    intro row memoryId hrow
    cases a with
    | writing | returned => cases h
    | _ => cases hrow

end Approval

def Repair.current? : Repair → Option Candidate
  | .blocking current _ | .approving current _ _ _ => some current
  | .ended => none

structure Repair.Sound (rows : List Candidate) (p : Repair) : Prop where
  snapshot : ∀ current, p.current? = some current → Snapshot rows current
  revision : ∀ current expectedRevision memoryId tokenHash,
    p = .approving current expectedRevision memoryId tokenHash →
      current.revision = expectedRevision

lemma Repair.sound_ended : Repair.Sound rows .ended where
  snapshot := fun _ hcurrent => by cases hcurrent
  revision := fun _ _ _ _ heq => by cases heq

structure Gate.Sound (w : Gate) : Prop where
  ids : (w.candidates.map (·.candidateId)).Nodup
  approvals : ∀ (i : ℕ) (a : Approval), w.approvals[i]? = some a →
    a.Sound w.candidates w.memories
  repairs : ∀ p ∈ w.repairs, Repair.Sound w.candidates p
  distinct : ∀ (i j : ℕ) (a b : Approval) (row other : Candidate), w.approvals[i]? = some a →
    w.approvals[j]? = some b → a.row? = some row → b.row? = some other →
      row.candidateId = other.candidateId → row.revision = other.revision → i = j
  owned : ∀ m ∈ w.memories, ∀ id, m.candidateId = some id →
    ∃ c ∈ w.candidates, c.candidateId = id ∧ (c.status = .approving ∨ c.status = .approved)
  once : ∀ id, w.memories.countP (fun m => m.candidateId = some id) ≤ 1
  approved : ∀ c ∈ w.candidates, c.status = .approved → Names w.memories c

lemma getElem?_set_cases {α : Type} {l : List α} {i j : ℕ} {x a : α}
    (h : (l.set i x)[j]? = some a) : (j = i ∧ a = x) ∨ (j ≠ i ∧ l[j]? = some a) := by
  rw [List.getElem?_set] at h
  by_cases hij : i = j
  · subst hij
    rw [if_pos rfl] at h
    by_cases hlt : i < l.length
    · rw [if_pos hlt] at h
      exact .inl ⟨rfl,(Option.some.inj h).symm⟩
    · rw [if_neg hlt] at h
      cases h
  · rw [if_neg hij] at h
    exact .inr ⟨fun hji => hij hji.symm,h⟩

lemma Gate.Sound.setApproval (h : w.Sound) {i : ℕ} {next : Approval}
    (hnext : next.Sound w.candidates w.memories)
    (hdistinct : ∀ (j : ℕ) (b : Approval) (row other : Candidate), j ≠ i →
      w.approvals[j]? = some b → next.row? = some row → b.row? = some other →
        row.candidateId = other.candidateId → row.revision ≠ other.revision) :
    (w.setApproval i next).Sound where
  ids := h.ids
  approvals := by
    intro j a ha
    rcases getElem?_set_cases ha with ⟨-,rfl⟩ | ⟨-,ha⟩
    · exact hnext
    · exact h.approvals j a ha
  repairs := h.repairs
  distinct := by
    intro j k a b row other ha hb hrow hother hid hrevision
    rcases getElem?_set_cases ha with ⟨rfl,rfl⟩ | ⟨hj,hja⟩
    · rcases getElem?_set_cases hb with ⟨rfl,-⟩ | ⟨hk,hkb⟩
      · rfl
      · exact absurd hrevision (hdistinct k b row other hk hkb hrow hother hid)
    · rcases getElem?_set_cases hb with ⟨rfl,rfl⟩ | ⟨hk,hkb⟩
      · exact absurd hrevision.symm (hdistinct j a other row hj hja hother hrow hid.symm)
      · exact h.distinct j k a b row other hja hkb hrow hother hid hrevision
  owned := h.owned
  once := h.once
  approved := h.approved

lemma Gate.Sound.endApproval (h : w.Sound) (i : ℕ) : (w.setApproval i .ended).Sound :=
  h.setApproval (Approval.sound_of_none rfl) fun _ _ _ _ _ _ hrow => by cases hrow

lemma Gate.Sound.moveApproval (h : w.Sound) {i : ℕ} {a next : Approval}
    (ha : w.approvals[i]? = some a) (hrow : a.row? = some row) (hkept : next.row? = some row)
    (hnext : next.Sound w.candidates w.memories) : (w.setApproval i next).Sound := by
  refine h.setApproval hnext ?_
  intro j b kept other hj hb hkept' hother hid hrevision
  rw [hkept] at hkept'
  cases hkept'
  exact hj (h.distinct i j a b row other ha hb hrow hother hid hrevision).symm

lemma Gate.Sound.endRepair (h : w.Sound) (j : ℕ) : (w.setRepair j .ended).Sound where
  ids := h.ids
  approvals := h.approvals
  repairs := by
    intro p hp
    rcases List.mem_or_eq_of_mem_set hp with hp | rfl
    · exact h.repairs p hp
    · exact Repair.sound_ended
  distinct := h.distinct
  owned := h.owned
  once := h.once
  approved := h.approved

section Table
variable {id : String} {current : Candidate} {t : Transition}

lemma mem_changed {c : Candidate}
    (hc : c ∈ RowTable.modify (fun c => c.candidateId = id) (fun _ => t.updated current) rows) :
    (c ∈ rows ∧ c.candidateId ≠ id) ∨ c = t.updated current := by
  obtain ⟨before,hbefore,rfl⟩ := RowTable.mem_modify.mp hc
  by_cases hid : before.candidateId = id
  · rw [if_pos (by simpa using hid)]
    exact .inr rfl
  · rw [if_neg (by simpa using hid)]
    exact .inl ⟨hbefore,hid⟩

lemma mem_changed_of_ne {c : Candidate} (hc : c ∈ rows) (hid : c.candidateId ≠ id) :
    c ∈ RowTable.modify (fun c => c.candidateId = id) (fun _ => t.updated current) rows := by
  refine RowTable.mem_modify.mpr ⟨c,hc,?_⟩
  rw [if_neg (by simpa using hid)]

lemma updated_mem (hrow : rowOf rows id = some current) : t.updated current ∈
      RowTable.modify (fun c => c.candidateId = id) (fun _ => t.updated current) rows := by
  obtain ⟨hmem,hid⟩ := rowOf_mem hrow
  refine RowTable.mem_modify.mpr ⟨current,hmem,?_⟩
  rw [if_pos (by simpa using hid)]

lemma nodup_changed (hids : (rows.map (·.candidateId)).Nodup)
    (hrow : rowOf rows id = some current) :
    ((RowTable.modify (fun c => c.candidateId = id) (fun _ => t.updated current) rows).map
      (·.candidateId)).Nodup := by
  have hsame : (RowTable.modify (fun c => c.candidateId = id) (fun _ => t.updated current) rows).map
      (·.candidateId) = rows.map (·.candidateId) := by
    rw [RowTable.modify,List.map_map]
    refine List.map_congr_left fun c hc => ?_
    by_cases hid : c.candidateId = id
    · simp only [Function.comp_apply,hid,decide_true,if_true]
      exact (rowOf_mem hrow).2
    · simp [hid]
  rw [hsame]
  exact hids

lemma Snapshot.changed {s : Candidate} (h : Snapshot rows s)
    (hids : (rows.map (·.candidateId)).Nodup) (hrow : rowOf rows id = some current) :
    Snapshot (RowTable.modify (fun c => c.candidateId = id) (fun _ => t.updated current) rows)
    s := by
  obtain ⟨c,hc,hid,hsession,hle,heq⟩ := h
  by_cases hsame : c.candidateId = id
  · obtain ⟨hmem,hcurrent⟩ := rowOf_mem hrow
    obtain rfl := RowTable.eq_of_key_eq hids hc hmem (hsame.trans hcurrent.symm)
    refine ⟨t.updated c,updated_mem hrow,hid,hsession,?_,?_⟩
    · exact le_trans hle (by simp [Transition.updated])
    · intro hrevision
      have hnext : (t.updated c).revision = c.revision+1 := rfl
      omega
  · exact ⟨c,mem_changed_of_ne hc hsame,hid,hsession,hle,heq⟩

lemma Snapshot.eq_row {s : Candidate} (h : Snapshot rows s)
    (hids : (rows.map (·.candidateId)).Nodup) (hrow : rowOf rows s.candidateId = some current)
    (hrevision : current.revision = s.revision) : s = current := by
  obtain ⟨c,hc,hid,-,-,heq⟩ := h
  obtain ⟨hmem,hcurrent⟩ := rowOf_mem hrow
  obtain rfl := RowTable.eq_of_key_eq hids hc hmem (hid.trans hcurrent.symm)
  exact heq hrevision.symm

def Gate.Unheld (w : Gate) (candidateId : String) : Prop :=
  ∀ (i : ℕ) (a : Approval) (row : Candidate), w.approvals[i]? = some a → a.holds = some row →
    row.candidateId ≠ candidateId

lemma Gate.Sound.change (h : w.Sound) (hrow : rowOf w.candidates id = some current)
    (hfree : w.Unheld id)
    (howned : t.nextStatus ≠ .approving → t.nextStatus ≠ .approved → Unwritten w.memories id)
    (happroved : t.nextStatus = .approved → Names w.memories (t.updated current)) :
    Gate.Sound { w with
      candidates := RowTable.modify (fun c => c.candidateId = id) (fun _ => t.updated current)
        w.candidates } where
  ids := nodup_changed h.ids hrow
  approvals := by
    intro i a ha
    have hold := h.approvals i a ha
    refine ⟨?_,?_,?_,hold.wrote⟩
    · intro row hr
      obtain ⟨hsnapshot,hstatus⟩ := hold.snapshot row hr
      exact ⟨hsnapshot.changed h.ids hrow,hstatus⟩
    · intro row hr hmem
      rcases mem_changed hmem with ⟨hmem,-⟩ | rfl
      · exact hold.early row hr hmem
      · -- the changed row is newer than every snapshot of its candidate
        obtain ⟨⟨c,hc,hid,-,hle,-⟩,-⟩ := hold.snapshot _ (Approval.row_of_unwritten hr)
        obtain ⟨hmem,-⟩ := rowOf_mem hrow
        obtain rfl := RowTable.eq_of_key_eq h.ids hc hmem hid
        have hnext : (t.updated c).revision = c.revision+1 := rfl
        omega
    · intro row hr
      obtain ⟨hmem,hsource⟩ := hold.locked row hr
      exact ⟨mem_changed_of_ne hmem (hfree i a row ha hr),hsource⟩
  repairs := by
    intro p hp
    have hold := h.repairs p hp
    exact ⟨fun c hc => (hold.snapshot c hc).changed h.ids hrow,hold.revision⟩
  distinct := h.distinct
  owned := by
    intro m hm other hother
    obtain ⟨c,hc,hid,hstatus⟩ := h.owned m hm other hother
    by_cases hsame : c.candidateId = id
    · by_cases happroving : t.nextStatus = .approving
      · exact ⟨t.updated current,updated_mem hrow,
          (rowOf_mem hrow).2.trans (hsame.symm.trans hid),.inl happroving⟩
      · by_cases hdone : t.nextStatus = .approved
        · exact ⟨t.updated current,updated_mem hrow, (rowOf_mem hrow).2.trans (hsame.symm.trans hid),.inr hdone⟩
        · refine absurd hother ?_
          rw [← hid,hsame]
          exact howned happroving hdone m hm
    · exact ⟨c,mem_changed_of_ne hc hsame,hid,hstatus⟩
  once := h.once
  approved := by
    intro c hc hstatus
    rcases mem_changed hc with ⟨hc,-⟩ | rfl
    · exact h.approved c hc hstatus
    · exact happroved hstatus

lemma Gate.Sound.transact (h : w.Sound) (hchange : ∀ current, rowOf w.candidates id = some current →
      current.status.terminal = false → current.revision = t.expectedRevision →
      t.allowed current.status = true → w.Unheld id ∧
        (t.nextStatus ≠ .approving → t.nextStatus ≠ .approved → Unwritten w.memories id) ∧
        (t.nextStatus = .approved → Names w.memories (t.updated current))) :
    (w.transact id t).Sound := by
  have heffect := transition_effect id t w.candidates
  unfold Gate.transact
  cases hresult : transition id t w.candidates with
  | error message => exact h
  | ok pair =>
    rw [hresult] at heffect
    cases heffect with
    | unchanged current hrow hstatus hterminal => exact h
    | changed current hrow hopen hrevision hallowed htoken =>
      obtain ⟨hfree,howned,happroved⟩ := hchange current hrow hopen hrevision hallowed
      exact h.change hrow hfree howned happroved

end Table

end Memora.Quality
