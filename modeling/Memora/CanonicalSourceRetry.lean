import Memora.CanonicalSourceSafety

/-! A candidate is written again under a later claim after the process died. The retry ends with
one accepted row exactly when no row had been committed, or the row had been accepted, or it
is pending under the token of the later claim. -/
namespace Memora.Canonical

namespace SourceCandidate

variable {c : SourceCandidate} {f : SummarySourceFence} {digest : String → String}
  {m : Metadata} {key : String}

/-- Under a key that SQL can read, the candidate is written with that key. -/
theorem usableKey_stamp (h : f.stamp digest c.keyed = some m) (hkey : 0 < sqlLength c.key) :
    usableKey m = some c.key := by
  have hne : c.key ≠ "" := by
    intro hempty
    rw [hempty] at hkey
    exact absurd hkey (by decide)
  have hfield : m.idempotencyKey = some (.text c.key) := by
    rw [(stamp_some h).2.2.2.1,keyed,if_neg hne]
  have hsame : sqlTrim c.key = c.key := by
    rw [sqlTrim_eq_pythonStrip]
    exact stripWhere_stripWhere _ _
  rw [usableKey_some,normalizedKeySql,hfield]
  exact ⟨by simp [JsonField.text?,hsame],hkey⟩

lemma unmarked_stamp (h : f.stamp digest c.keyed = some m) : m.memoryStatus = none ∧
    m.status = none := by
  obtain ⟨-,-,-,-,hmemory,hstatus⟩ := stamp_some h
  have hkeyed : c.keyed.memoryStatus = none ∧ c.keyed.status = none := by
    unfold keyed
    split <;> exact c.unmarked
  exact ⟨hmemory.trans hkeyed.1,hstatus.trans hkeyed.2⟩

lemma find_key (c : SourceCandidate) : normalizeCanonicalIdempotencyKey c.key = c.key :=
  stripWhere_stripWhere _ _

end SourceCandidate

lemma insertDocument_of_fresh {s : IdempotencyTables} {id : ℕ} {m : Metadata} {k : String}
    (h : s.Right) (hid : s.documents.get? id = none) (hkey : usableKey m = some k)
    (hno : ∀ j, ¬ Carries s.documents k j) :
    ∃ mapping, s.insertDocument id m = some { documents := s.documents.set id m, mapping } := by
  have hfree : s.mapping.get? k = none := h.none_iff.mpr hno
  have howner : s.mapping.values.contains id = false := by
    rw [← Bool.not_eq_true,List.contains_iff_mem,Dict.mem_values]
    rintro ⟨k',hk'⟩
    obtain ⟨m',hm',-⟩ := ((h k' id).mp hk').carries
    exact absurd (hid.symm.trans hm') (by simp)
  refine ⟨s.mapping.set k id,?_⟩
  simp [IdempotencyTables.insertDocument,hid,hkey,insertMapping,hfree,-List.contains_eq_mem, howner]

namespace SourceWorld

variable {digest : String → String} {w : SourceWorld} {a : SourceStep} {k : ℕ}
  {c : SourceCall} {o : SourceOutcome} {key : String} {id : ℕ} {m : Metadata}
  {f : SummarySourceFence} {candidate : SourceCandidate}

inductive TablesChange (w : SourceWorld) : IdempotencyTables → Prop
  | same : TablesChange w w.tables
  | deleted (id : ℕ) : TablesChange w (w.tables.deleteDocument id)
  | inserted (k : ℕ) (c : SourceCall) (m : Metadata) (id : ℕ) (tables : IdempotencyTables)
      (call : w.calls.get? k = some c) (phase : c.phase = .inserting m)
      (insert : w.tables.insertDocument id m = some tables) : TablesChange w tables
  | settled (id : ℕ) (m : Metadata) (orphan : Bool) (row : w.row id = some m) :
      TablesChange w { w.tables with documents := w.tables.documents.set id (m.settle orphan) }

lemma writeState_change (w : SourceWorld) (o : SourceOutcome) (id : ℕ)
    (orphan requirePending : Bool) (token : Option String) :
    TablesChange w ((w.writeState o id orphan token requirePending).getD w.tables) := by
  cases hw : w.writeState o id orphan token requirePending with
  | none => exact .same
  | some tables =>
    unfold writeState at hw
    split at hw
    · obtain ⟨m,hm,-,-,rfl⟩ := applySummarySourceState_some.mp hw
      exact .settled id m orphan hm
    · cases hw

lemma next_tables (digest : String → String) (hc : w.calls.get? k = some c)
    (o : SourceOutcome) : TablesChange w (w.next digest c o).1 := by
  cases hp : c.phase with
  | started | looking =>
    simp only [next,hp]
    split
    · exact .same
    · split <;> exact .same
  | inserting m =>
    simp only [next,hp]
    split
    · rename_i tables hins
      split at hins
      · exact .inserted k c m o.newId tables hc hp hins
      · cases hins
    · exact .same
  | recovering =>
    simp only [next,hp]
    split <;> exact .same
  | loading i =>
    simp only [next,hp]
    split
    · split <;> exact .same
    · exact .same
  | rejecting i | orphaning i =>
    simp only [next,hp]
    exact writeState_change w o i _ _ _
  | activating i =>
    have hchange := writeState_change w o i false true (some (c.fence.opaqueToken digest))
    simp only [next,hp]
    split
    · rename_i tables hw
      rwa [hw] at hchange
    · exact .same
  | checking i seen | reloading i | finalizing i | finished i | failed reason =>
    simp only [next,hp]
    exact .same

lemma step_tables (digest : String → String) (w : SourceWorld) (a : SourceStep) :
    TablesChange w (w.step digest a).tables := by
  cases a with
  | claims | crash => exact .same
  | begin | finalize =>
    simp only [step]
    split <;> exact .same
  | advance k o =>
    cases hc : w.calls.get? k with
    | none =>
      simp only [step,hc]
      exact .same
    | some c =>
      simp only [step,hc]
      exact next_tables digest hc o
  | delete i => exact .deleted i

/-- The mapping is right, at most one memory has the key, it has no lifecycle status, and
calls insert what their fence stamps. -/
structure KeyRows (digest : String → String) (key : String) (w : SourceWorld) : Prop where
  right : w.tables.Right
  unique : ∀ i j, Carries w.tables.documents key i → Carries w.tables.documents key j → i = j
  unmarked : ∀ id m, w.row id = some m → usableKey m = some key →
    m.memoryStatus = none ∧ m.status = none
  staged : w.Staged digest

lemma right_settle {s : IdempotencyTables} (h : s.Right) (hm : s.documents.get? id = some m)
    (orphan : Bool) :
    IdempotencyTables.Right { s with documents := s.documents.set id (m.settle orphan) } := by
  have hwrite : s.updateMetadata id (m.settle orphan) =
      some { s with documents := s.documents.set id (m.settle orphan) } :=
    updateMetadata_of_same_key hm rfl
  exact IdempotencyTables.right_update h hwrite

lemma usableKey_settle (m : Metadata) (orphan : Bool) :
    usableKey (m.settle orphan) = usableKey m := rfl

lemma carries_settle {d : Dict ℕ Metadata} (hm : d.get? id = some m) (orphan : Bool) (j : ℕ) :
    Carries (d.set id (m.settle orphan)) key j ↔ Carries d key j := by
  rw [IdempotencyTables.carries_set,usableKey_settle]
  split
  · rename_i hj
    subst hj
    simp [Carries,hm]
  · exact Iff.rfl

lemma keyRows_step (h : w.KeyRows digest key) (a : SourceStep) :
    (w.step digest a).KeyRows digest key := by
  have hstaged : (w.step digest a).Staged digest := staged_step h.staged a
  have hchange := step_tables digest w a
  generalize ht : (w.step digest a).tables = tables at hchange
  suffices hrows : tables.Right ∧
      (∀ i j, Carries tables.documents key i → Carries tables.documents key j → i = j) ∧
      ∀ id m, tables.documents.get? id = some m → usableKey m = some key →
        m.memoryStatus = none ∧ m.status = none by
    obtain ⟨hright,hunique,hunmarked⟩ := hrows
    rw [← ht] at hright hunique hunmarked
    exact ⟨hright,hunique,hunmarked,hstaged⟩
  cases hchange with
  | same => exact ⟨h.right,h.unique,h.unmarked⟩
  | deleted i =>
    have hsub : ∀ j m, (w.tables.deleteDocument i).documents.get? j = some m →
        w.tables.documents.get? j = some m := by
      intro j m hj
      rw [deleteDocument_get?] at hj
      split at hj
      · cases hj
      · exact hj
    refine ⟨IdempotencyTables.right_delete h.right,?_,fun j m hj => h.unmarked j m (hsub j m hj)⟩
    rintro j j' ⟨m,hm,hk⟩ ⟨m',hm',hk'⟩
    exact h.unique j j' ⟨m,hsub j m hm,hk⟩ ⟨m',hsub j' m' hm',hk'⟩
  | inserted k c m i _ hc hp hins =>
    have hstamp := h.staged k c m hc (.inr hp)
    have hset := (insertDocument_documents hins).2
    refine ⟨IdempotencyTables.right_insert h.right hins,?_,?_⟩
    · -- a second memory with the key would have been refused
      have hother : ∀ j, usableKey m = some key → ¬ Carries w.tables.documents key j := by
        intro j hk hj
        have hrefused : w.tables.insertDocument i m = none := IdempotencyTables.insert_refused h.right hk hj
        exact absurd (hrefused.symm.trans hins) (by simp)
      intro j j' hj hj'
      rw [hset,IdempotencyTables.carries_set] at hj hj'
      split at hj
      · rename_i hji
        split at hj'
        · rename_i hji'
          rw [hji,hji']
        · exact absurd hj' (hother j' hj)
      · split at hj'
        · exact absurd hj (hother j hj')
        · exact h.unique j j' hj hj'
    · intro j m' hj hk
      rw [hset,Dict.get?_set] at hj
      split at hj
      · cases hj
        exact SourceCandidate.unmarked_stamp hstamp
      · exact h.unmarked j m' hj hk
  | settled i m orphan hm =>
    refine ⟨right_settle h.right hm orphan,?_,?_⟩
    · intro j j' hj hj'
      exact h.unique j j' ((carries_settle hm orphan j).mp hj) ((carries_settle hm orphan j').mp hj')
    · intro j m' hj hk
      rw [Dict.get?_set] at hj
      split at hj
      · cases hj
        exact h.unmarked i m hm hk
      · exact h.unmarked j m' hj hk

/-- No read and no write of the step fails, and a new row gets a free id. -/
def Faultless (w : SourceWorld) (a : SourceStep) : Prop :=
  ∀ k o, a = .advance k o → o.readable = true ∧ o.committed = true ∧ w.row o.newId = none

variable (os : List SourceOutcome) (d : Dict ℕ Metadata)

def AcceptedOnce (key : String) : Prop :=
  ∃ id m, d.get? id = some m ∧ isSummarySourceAccepted m = true ∧ isMemoryRecallable m = true ∧
    ∀ j, Carries d key j ↔ j = id

def Waits (digest : String → String) (key : String) (f : SummarySourceFence)
    (d : Dict ℕ Metadata) (id : ℕ) : Prop :=
  ∃ m, d.get? id = some m ∧ usableKey m = some key ∧ m.summarySourcePending = true ∧
    m.sourceFence = some (f.opaqueToken digest)

def Accepts (key : String) (d : Dict ℕ Metadata) (id : ℕ) : Prop :=
  ∃ m, d.get? id = some m ∧ usableKey m = some key ∧ isSummarySourceAccepted m = true

def Resumable (digest : String → String) (key : String) (f : SummarySourceFence)
    (d : Dict ℕ Metadata) : Prop :=
  ∀ id, Carries d key id → Accepts key d id ∨ Waits digest key f d id

lemma isMemoryRecallable_of_unmarked (h : m.memoryStatus = none ∧ m.status = none)
    (ha : isSummarySourceAccepted m = true) : isMemoryRecallable m = true := by
  have heffective : effectiveMemoryStatus m = .active := by
    simp [effectiveMemoryStatus,h.1,h.2]
  simp only [isSummarySourceAccepted,Bool.and_eq_true] at ha
  simp [isMemoryRecallable,heffective,ha.1]

def stepsLeft : SourcePhase → ℕ
  | .started => 7
  | .looking _ => 6
  | .inserting _ | .recovering => 5
  | .loading _ => 4
  | .checking _ _ => 3
  | .rejecting _ | .activating _ => 2
  | .reloading _ | .finalizing _ | .orphaning _ => 1
  | .finished _ | .failed _ => 0

def Leads (digest : String → String) (key : String) (f : SummarySourceFence) (m₂ : Metadata)
    (d : Dict ℕ Metadata) : SourcePhase → Prop
  | .started => True
  | .looking m => m = m₂
  | .inserting m => m = m₂ ∧ ∀ j, ¬ Carries d key j
  | .loading id => Carries d key id
  | .checking id seen => seen = true ∧ Waits digest key f d id
  | .activating id => Waits digest key f d id
  | .finalizing id | .finished id => Accepts key d id
  | .failed _ => ∃ id, Accepts key d id
  | .recovering | .rejecting _ | .reloading _ | .orphaning _ => False

/-- What is known of it when a memory with the key is neither accepted nor waits for this
token. -/
def Misses (id : ℕ) : SourcePhase → Prop
  | .started | .looking _ | .failed _ => True
  | .loading i | .activating i | .reloading i => i = id
  | .checking i seen => i = id ∧ seen = true
  | .inserting _ | .recovering | .rejecting _ | .finalizing _ | .orphaning _ | .finished _ => False

structure Retrying (digest : String → String) (candidate : SourceCandidate)
    (f : SummarySourceFence) (k : ℕ) (w : SourceWorld) (phase : SourcePhase) : Prop where
  call : w.calls.get? k = some { fence := f, candidate, phase }
  active : w.fenceActive f = true
  rows : w.KeyRows digest candidate.key
  readable_key : 0 < sqlLength candidate.key

variable {phase : SourcePhase} {m₂ : Metadata}

lemma retrying_step (h : Retrying digest candidate f k w phase) (o : SourceOutcome) :
    Retrying digest candidate f k (w.step digest (.advance k o))
      (w.next digest { fence := f, candidate, phase } o).2 := by
  refine ⟨?_,?_,keyRows_step h.rows _,h.readable_key⟩
  · simp [step,h.call]
  · have hactive := h.active
    simpa [step,h.call,fenceActive] using hactive

lemma tables_of_retrying (h : Retrying digest candidate f k w phase) (o : SourceOutcome) :
    (w.step digest (.advance k o)).tables = (w.next digest { fence := f, candidate, phase } o).1 := by
  simp [step,h.call]

lemma key_ne_empty (h : 0 < sqlLength key) : key ≠ "" := by
  rintro rfl
  exact absurd h (by decide)

lemma find_owner (h : w.KeyRows digest candidate.key) :
    (∃ id, w.tables.find candidate.key = .ok (some id) ∧ Carries w.tables.documents candidate.key id) ∨
      w.tables.find candidate.key = .ok none ∧
        ∀ j, ¬ Carries w.tables.documents candidate.key j := by
  have hfind := IdempotencyTables.find_right h.right candidate.key
  rw [candidate.find_key] at hfind
  rcases hfind with ⟨id,hid,howner⟩ | hnone
  · exact .inl ⟨id,hid,howner.carries⟩
  · exact .inr hnone

lemma writeState_of {d : IdempotencyTables} (hm : w.row id = some m)
    (ho : o.committed = true) (hpending : m.summarySourcePending = true)
    (htoken : m.sourceFence = some (f.opaqueToken digest)) (orphan : Bool)
    (hd : d = { w.tables with documents := w.tables.documents.set id (m.settle orphan) }) :
    w.writeState o id orphan (some (f.opaqueToken digest)) true = some d := by
  rw [writeState,if_pos ho,applySummarySourceState_some]
  exact ⟨m,hm,fun _ => htoken,fun _ => hpending,hd⟩

lemma leads_next (h : Retrying digest candidate f k w phase)
    (hstamp : f.stamp digest candidate.keyed = some m₂)
    (hres : Resumable digest candidate.key f w.tables.documents)
    (hleads : Leads digest candidate.key f m₂ w.tables.documents phase)
    (hreadable : o.readable = true) (hcommitted : o.committed = true)
    (hnew : w.row o.newId = none) :
    Resumable digest candidate.key f (w.next digest { fence := f, candidate, phase } o).1.documents ∧
      Leads digest candidate.key f m₂ (w.next digest { fence := f, candidate, phase } o).1.documents
        (w.next digest { fence := f, candidate, phase } o).2 ∧
      stepsLeft (w.next digest { fence := f, candidate, phase } o).2 ≤ stepsLeft phase - 1 := by
  have hne := key_ne_empty h.readable_key
  have hread : ∀ i, w.read o i = w.tables.documents.get? i := fun i => by
    rw [read,if_pos hreadable,row]
  cases phase with
  | started =>
    simp only [next,h.active,hstamp,Bool.not_true,Bool.false_eq_true,if_false,hne]
    exact ⟨hres,rfl,by simp [stepsLeft]⟩
  | looking m =>
    simp only [next,hreadable,Bool.not_true,Bool.false_eq_true,if_false]
    rcases find_owner h.rows with ⟨id,hid,hc⟩ | ⟨hnone,hno⟩
    · rw [hid]
      exact ⟨hres,hc,by simp [stepsLeft]⟩
    · rw [hnone]
      exact ⟨hres,⟨hleads,hno⟩,by simp [stepsLeft]⟩
  | inserting m =>
    obtain ⟨rfl,hno⟩ := hleads
    have hkey := candidate.usableKey_stamp hstamp h.readable_key
    obtain ⟨mapping,hins⟩ := insertDocument_of_fresh h.rows.right hnew hkey hno
    simp only [next,hcommitted,if_true,hins]
    have hnewrow : Carries (w.tables.documents.set o.newId m) candidate.key o.newId := ⟨m,by simp,hkey⟩
    refine ⟨fun i hi => .inr ?_,hnewrow,by simp [stepsLeft]⟩
    rw [IdempotencyTables.carries_set] at hi
    split at hi
    · rename_i hid
      subst hid
      obtain ⟨-,hpending,htoken,-⟩ := stamp_some hstamp
      exact ⟨m,by simp,hkey,hpending,htoken⟩
    · exact absurd hi (hno i)
  | loading id =>
    obtain ⟨m,hm,hkey⟩ := hleads
    simp only [next,hread,hm]
    rcases hres id ⟨m,hm,hkey⟩ with ⟨m',hm',-,haccepted⟩ | ⟨m',hm',-,hpending,htoken⟩
    · obtain rfl := Option.some.inj (hm.symm.trans hm')
      rw [if_pos haccepted]
      have haccepts : Accepts candidate.key w.tables.documents id := ⟨m,hm,hkey,haccepted⟩
      split
      · exact ⟨hres,haccepts,by simp [stepsLeft]⟩
      · exact ⟨hres,⟨id,haccepts⟩,by simp [stepsLeft]⟩
    · obtain rfl := Option.some.inj (hm.symm.trans hm')
      rw [if_neg (by simp [isSummarySourceAccepted,hpending])]
      exact ⟨hres,⟨rfl,m,hm,hkey,hpending,htoken⟩,by simp [stepsLeft]⟩
  | checking id seen =>
    obtain ⟨rfl,hwaits⟩ := hleads
    simp only [next,h.active,Bool.not_true,Bool.false_eq_true,if_false,if_true]
    exact ⟨hres,hwaits,by simp [stepsLeft]⟩
  | activating id =>
    obtain ⟨m,hm,hkey,hpending,htoken⟩ := hleads
    have hwrite := writeState_of hm hcommitted hpending htoken false rfl
    simp only [next,hwrite]
    have haccepts : Accepts candidate.key (w.tables.documents.set id (m.settle false)) id :=
      ⟨m.settle false,by simp,hkey,rfl⟩
    refine ⟨fun i hi => .inl ?_,haccepts,by simp [stepsLeft]⟩
    have hsame := h.rows.unique i id ((carries_settle hm false i).mp hi) ⟨m,hm,hkey⟩
    rwa [hsame]
  | finalizing id =>
    obtain ⟨m,hm,hkey,haccepted⟩ := hleads
    simp only [next,hread,hm,Option.isSome_some,if_true]
    exact ⟨hres,⟨m,hm,hkey,haccepted⟩,by simp [stepsLeft]⟩
  | finished | failed => exact ⟨hres,hleads,by simp [stepsLeft,next]⟩
  | recovering | rejecting id | reloading id | orphaning id => exact hleads.elim

/-- Where a memory with the key is neither accepted nor waits for this token, no step of the
retry writes. -/
theorem misses_next (h : Retrying digest candidate f k w phase)
    (hstamp : f.stamp digest candidate.keyed = some m₂)
    (hc : Carries w.tables.documents candidate.key id)
    (hnot : ¬ Accepts candidate.key w.tables.documents id)
    (hwaits : ¬ Waits digest candidate.key f w.tables.documents id) (hmisses : Misses id phase)
    (hreadable : o.readable = true) : (w.next digest { fence := f, candidate, phase } o).1 =
    w.tables ∧
      Misses id (w.next digest { fence := f, candidate, phase } o).2 := by
  have hne := key_ne_empty h.readable_key
  obtain ⟨m,hm,hkey⟩ := hc
  have hread : w.read o id = some m := by rw [read,if_pos hreadable,row,hm]
  have haccepted : isSummarySourceAccepted m = false := by
    by_contra hno
    exact hnot ⟨m,hm,hkey,by simpa using hno⟩
  cases phase with
  | started =>
    simp only [next,h.active,hstamp,Bool.not_true,Bool.false_eq_true,if_false,hne]
    exact ⟨trivial,trivial⟩
  | looking m' =>
    simp only [next,hreadable,Bool.not_true,Bool.false_eq_true,if_false]
    rcases find_owner h.rows with ⟨i,hi,hc⟩ | ⟨-,hno⟩
    · simp only [hi]
      exact ⟨trivial,h.rows.unique i id hc ⟨m,hm,hkey⟩⟩
    · exact absurd ⟨m,hm,hkey⟩ (hno id)
  | loading i =>
    obtain rfl : i = id := hmisses
    simp only [next,hread,haccepted,Bool.false_eq_true,if_false]
    exact ⟨trivial,rfl,rfl⟩
  | checking i seen =>
    obtain ⟨rfl,rfl⟩ := hmisses
    simp only [next,h.active,Bool.not_true,Bool.false_eq_true,if_false,if_true]
    exact ⟨trivial,rfl⟩
  | activating i =>
    obtain rfl : i = id := hmisses
    have hwrite : w.writeState o i false (some (f.opaqueToken digest)) true = none := by
      cases hw : w.writeState o i false (some (f.opaqueToken digest)) true with
      | none => rfl
      | some tables =>
        obtain ⟨m',hm',htoken,hpending,-⟩ := writeState_some hw
        obtain rfl := Option.some.inj (hm.symm.trans hm')
        exact absurd ⟨m,hm,hkey,hpending rfl,htoken rfl⟩ hwaits
    simp only [next,hwrite]
    exact ⟨trivial,rfl⟩
  | reloading i =>
    obtain rfl : i = id := hmisses
    simp only [next,hread,Option.any_some,haccepted,Bool.false_and,Bool.false_eq_true, if_false]
    exact ⟨trivial,trivial⟩
  | failed reason => exact ⟨rfl,trivial⟩
  | inserting m' | recovering | rejecting i | finalizing i | orphaning i | finished i =>
    exact hmisses.elim

lemma leads_run (h : Retrying digest candidate f k w phase)
    (hstamp : f.stamp digest candidate.keyed = some m₂)
    (hres : Resumable digest candidate.key f w.tables.documents)
    (hleads : Leads digest candidate.key f m₂ w.tables.documents phase)
    (hok : RunLaws.Along (step digest) Faultless w (os.map (.advance k ·))) :
    ∃ phase', Retrying digest candidate f k (w.run digest (os.map (.advance k ·))) phase' ∧
      Leads digest candidate.key f m₂ (w.run digest (os.map (.advance k ·))).tables.documents phase' ∧
      stepsLeft phase' ≤ stepsLeft phase - os.length := by
  induction os generalizing w phase with
  | nil => exact ⟨phase,h,hleads,by simp⟩
  | cons o os ih =>
    obtain ⟨hfirst,hrest⟩ := hok
    obtain ⟨hreadable,hcommitted,hnew⟩ := hfirst k o rfl
    obtain ⟨hres',hleads',hleft⟩ := leads_next h hstamp hres hleads hreadable hcommitted hnew
    rw [← tables_of_retrying h o] at hres' hleads'
    obtain ⟨phase',hretrying,hleads'',hleft'⟩ := ih (retrying_step h o) hres' hleads' hrest
    refine ⟨phase',hretrying,hleads'',?_⟩
    rw [List.length_cons]
    omega

lemma misses_run (h : Retrying digest candidate f k w phase)
    (hstamp : f.stamp digest candidate.keyed = some m₂)
    (hc : Carries w.tables.documents candidate.key id)
    (hnot : ¬ Accepts candidate.key w.tables.documents id)
    (hwaits : ¬ Waits digest candidate.key f w.tables.documents id) (hmisses : Misses id phase)
    (hok : RunLaws.Along (step digest) Faultless w (os.map (.advance k ·))) :
    (w.run digest (os.map (.advance k ·))).tables = w.tables := by
  induction os generalizing w phase with
  | nil => rfl
  | cons o os ih =>
    obtain ⟨hfirst,hrest⟩ := hok
    obtain ⟨hsame,hmisses'⟩ := misses_next h hstamp hc hnot hwaits hmisses (hfirst k o rfl).1
    have htables := (tables_of_retrying h o).trans hsame
    have htail := ih (retrying_step h o) (by rwa [htables]) (by rwa [htables]) (by rwa [htables]) hmisses' hrest
    exact htail.trans htables

lemma acceptedOnce_of_accepts (h : w.KeyRows digest key)
    (ha : Accepts key w.tables.documents id) : AcceptedOnce w.tables.documents key := by
  obtain ⟨m,hm,hkey,haccepted⟩ := ha
  refine ⟨id,m,hm,haccepted, isMemoryRecallable_of_unmarked (h.unmarked id m hm hkey)
    haccepted,fun j => ?_⟩
  constructor
  · intro hj
    exact h.unique j id hj ⟨m,hm,hkey⟩
  · rintro rfl
    exact ⟨m,hm,hkey⟩

def rewrite (digest : String → String) (w : SourceWorld) (k : ℕ) (f : SummarySourceFence)
    (candidate : SourceCandidate) (os : List SourceOutcome) : SourceWorld :=
  w.run digest (.begin k f candidate::os.map (.advance k ·))

/-- A retry that is not cut short ends with one accepted row exactly when its start was
resumable. -/
theorem rewrite_accepts {os : List SourceOutcome} (hrows : w.KeyRows digest candidate.key)
    (hkey : 0 < sqlLength candidate.key) (hcalls : w.calls.get? k = none)
    (hactive : w.fenceActive f = true) (hstamp : f.stamp digest candidate.keyed = some m₂)
    (hos : 7 ≤ os.length)
    (hok : RunLaws.Along (step digest) Faultless w (.begin k f candidate::os.map (.advance k ·))) :
    AcceptedOnce (w.rewrite digest k f candidate os).tables.documents candidate.key ↔
      Resumable digest candidate.key f w.tables.documents := by
  have htables : (w.step digest (.begin k f candidate)).tables = w.tables := by
    simp [step,hcalls]
  have hretrying : Retrying digest candidate f k (w.step digest (.begin k f candidate))
      .started := by
    refine ⟨?_,?_,keyRows_step hrows _,hkey⟩
    · simp [step,hcalls]
    · simpa [step,hcalls,fenceActive] using hactive
  change AcceptedOnce ((w.step digest (.begin k f candidate)).run digest
    (os.map (.advance k ·))).tables.documents candidate.key ↔ _
  constructor
  · rintro ⟨id,m,hm,haccepted,-,hcarries⟩
    intro i hi
    by_contra hno
    push Not at hno
    obtain ⟨hnot,hwaits⟩ := hno
    -- the row stays as it is, so the retry ends with it
    have hsame := misses_run os hretrying hstamp (by rwa [htables]) (by rwa [htables])
      (by rwa [htables]) trivial hok.2
    rw [hsame,htables] at hm hcarries
    obtain rfl := (hcarries i).mp hi
    obtain ⟨m',hm',hkey'⟩ := hi
    obtain rfl := Option.some.inj (hm.symm.trans hm')
    exact hnot ⟨m,hm,hkey',haccepted⟩
  · intro hres
    rw [← htables] at hres
    obtain ⟨phase',hend,hleads,hleft⟩ := leads_run os hretrying hstamp hres trivial hok.2
    have hzero : stepsLeft phase' = 0 := by
      have hseven : stepsLeft SourcePhase.started = 7 := rfl
      omega
    cases phase' with
    | finished id => exact acceptedOnce_of_accepts hend.rows hleads
    | failed reason =>
      obtain ⟨id,haccepts⟩ := hleads
      exact acceptedOnce_of_accepts hend.rows haccepts
    | started | looking _ | inserting _ | recovering | loading _ | checking _ _ | rejecting _
    | activating _ | reloading _ | finalizing _ | orphaning _ => simp [stepsLeft] at hzero

/-- The first write of a candidate, phase by phase: nothing is committed, the staged row is
committed, the row is accepted. -/
def Writes (key : String) (m₁ : Metadata) (d : Dict ℕ Metadata) : SourcePhase → Prop
  | .started => ∀ j, ¬ Carries d key j
  | .looking m | .inserting m => m = m₁ ∧ ∀ j, ¬ Carries d key j
  | .loading id | .activating id => d.get? id = some m₁
  | .checking id seen => seen = true ∧ d.get? id = some m₁
  | .finalizing id | .finished id => Accepts key d id
  | .recovering | .rejecting _ | .reloading _ | .orphaning _ | .failed _ => False

variable {m₁ : Metadata} {f₁ f₂ : SummarySourceFence}

lemma writes_next (h : Retrying digest candidate f k w phase)
    (hstamp : f.stamp digest candidate.keyed = some m₁)
    (hwrites : Writes candidate.key m₁ w.tables.documents phase)
    (hreadable : o.readable = true) (hcommitted : o.committed = true)
    (hnew : w.row o.newId = none) :
    Writes candidate.key m₁ (w.next digest { fence := f, candidate, phase } o).1.documents
        (w.next digest { fence := f, candidate, phase } o).2 ∧
      stepsLeft (w.next digest { fence := f, candidate, phase } o).2 = stepsLeft phase - 1 := by
  have hne := key_ne_empty h.readable_key
  have hread : ∀ i, w.read o i = w.tables.documents.get? i := fun i => by
    rw [read,if_pos hreadable,row]
  have hkey := candidate.usableKey_stamp hstamp h.readable_key
  obtain ⟨-,hpending,htoken,-⟩ := stamp_some hstamp
  cases phase with
  | started =>
    simp only [next,h.active,hstamp,Bool.not_true,Bool.false_eq_true,if_false,hne]
    exact ⟨⟨rfl,hwrites⟩,rfl⟩
  | looking m =>
    simp only [next,hreadable,Bool.not_true,Bool.false_eq_true,if_false]
    rcases find_owner h.rows with ⟨id,-,hc⟩ | ⟨hnone,-⟩
    · exact absurd hc (hwrites.2 id)
    · rw [hnone]
      exact ⟨hwrites,rfl⟩
  | inserting m =>
    obtain ⟨rfl,hno⟩ := hwrites
    obtain ⟨mapping,hins⟩ := insertDocument_of_fresh h.rows.right hnew hkey hno
    simp only [next,hcommitted,if_true,hins]
    exact ⟨Dict.get?_set_self,rfl⟩
  | loading id =>
    have hm : w.tables.documents.get? id = some m₁ := hwrites
    have hstaged : isSummarySourceAccepted m₁ = false := by simp [isSummarySourceAccepted,hpending]
    simp only [next,hread,hm,hstaged,Bool.false_eq_true,if_false]
    exact ⟨⟨rfl,hm⟩,rfl⟩
  | checking id seen =>
    obtain ⟨rfl,hm⟩ := hwrites
    simp only [next,h.active,Bool.not_true,Bool.false_eq_true,if_false,if_true]
    exact ⟨hm,rfl⟩
  | activating id =>
    have hm : w.tables.documents.get? id = some m₁ := hwrites
    have hwrite := writeState_of hm hcommitted hpending htoken false rfl
    simp only [next,hwrite]
    exact ⟨⟨m₁.settle false,by simp,hkey,rfl⟩,rfl⟩
  | finalizing id =>
    obtain ⟨m,hm,hcarried,haccepted⟩ := hwrites
    simp only [next,hread,hm,Option.isSome_some,if_true]
    exact ⟨⟨m,hm,hcarried,haccepted⟩,rfl⟩
  | finished id => exact ⟨hwrites,rfl⟩
  | recovering | rejecting id | reloading id | orphaning id | failed reason =>
    exact hwrites.elim

lemma writes_run (h : Retrying digest candidate f k w phase)
    (hstamp : f.stamp digest candidate.keyed = some m₁)
    (hwrites : Writes candidate.key m₁ w.tables.documents phase)
    (hok : RunLaws.Along (step digest) Faultless w (os.map (.advance k ·))) :
    ∃ phase', (w.run digest (os.map (.advance k ·))).KeyRows digest candidate.key ∧
      Writes candidate.key m₁ (w.run digest (os.map (.advance k ·))).tables.documents phase' ∧
      stepsLeft phase' = stepsLeft phase - os.length := by
  induction os generalizing w phase with
  | nil => exact ⟨phase,h.rows,hwrites,by simp⟩
  | cons o os ih =>
    obtain ⟨hfirst,hrest⟩ := hok
    obtain ⟨hreadable,hcommitted,hnew⟩ := hfirst k o rfl
    obtain ⟨hwrites',hleft⟩ := writes_next h hstamp hwrites hreadable hcommitted hnew
    rw [← tables_of_retrying h o] at hwrites'
    obtain ⟨phase',hrows,hwrites'',hleft'⟩ := ih (retrying_step h o) hwrites' hrest
    refine ⟨phase',hrows,hwrites'',?_⟩
    rw [List.length_cons]
    omega

/-- A write that died can be resumed unless its row was committed and not yet accepted, and
the later claim has another token. -/
theorem resumable_iff_of_writes (hrows : w.KeyRows digest candidate.key)
    (hkey : 0 < sqlLength candidate.key) (hstamp : f₁.stamp digest candidate.keyed = some m₁)
    (hwrites : Writes candidate.key m₁ w.tables.documents phase) :
    Resumable digest candidate.key f₂ w.tables.documents ↔ 4 < stepsLeft phase ∨
    stepsLeft phase < 2 ∨
        f₁.opaqueToken digest = f₂.opaqueToken digest := by
  have hcarried := candidate.usableKey_stamp hstamp hkey
  obtain ⟨-,hpending,htoken,-⟩ := stamp_some hstamp
  have hnone : (∀ j, ¬ Carries w.tables.documents candidate.key j) →
      Resumable digest candidate.key f₂ w.tables.documents :=
    fun hno i hi => absurd hi (hno i)
  have haccepted : ∀ id, Accepts candidate.key w.tables.documents id →
      Resumable digest candidate.key f₂ w.tables.documents := by
    rintro id ⟨m,hm,hk,ha⟩ i hi
    rw [hrows.unique i id hi ⟨m,hm,hk⟩]
    exact .inl ⟨m,hm,hk,ha⟩
  have hstaged : ∀ id, w.tables.documents.get? id = some m₁ →
      (Resumable digest candidate.key f₂ w.tables.documents ↔
        f₁.opaqueToken digest = f₂.opaqueToken digest) := by
    intro id hm
    constructor
    · intro hres
      rcases hres id ⟨m₁,hm,hcarried⟩ with ⟨m,hm',-,ha⟩ | ⟨m,hm',-,-,ht⟩
      · obtain rfl := Option.some.inj (hm.symm.trans hm')
        simp [isSummarySourceAccepted,hpending] at ha
      · obtain rfl := Option.some.inj (hm.symm.trans hm')
        exact Option.some.inj (htoken.symm.trans ht)
    · intro ht i hi
      rw [hrows.unique i id hi ⟨m₁,hm,hcarried⟩]
      exact .inr ⟨m₁,hm,hcarried,hpending,by rw [htoken,ht]⟩
  cases phase with
  | started => simp [stepsLeft,hnone hwrites]
  | looking m | inserting m => simp [stepsLeft,hnone hwrites.2]
  | loading id | activating id => simp [stepsLeft,hstaged id hwrites]
  | checking id seen => simp [stepsLeft,hstaged id hwrites.2]
  | finalizing id | finished id => simp [stepsLeft,haccepted id hwrites]
  | recovering | rejecting id | reloading id | orphaning id | failed reason =>
    exact hwrites.elim

/-- The process dies; a later claim is handed out. -/
def died (digest : String → String) (w : SourceWorld) (store : Summary.Store)
    (clock : Summary.Time) : SourceWorld :=
  (w.step digest .crash).step digest (.claims store clock)

lemma keyRows_start {documents : Dict ℕ Metadata} {calls : List IdempotencyTables.DocumentCall}
    (store : Summary.Store) (clock : Summary.Time)
    (hnew : ∀ j, ¬ Carries ((IdempotencyTables.rebuild documents).run calls).documents key j) :
    (start ((IdempotencyTables.rebuild documents).run calls) store clock).KeyRows digest key := by
  refine ⟨?_,?_,?_,?_⟩
  · exact RunLaws.foldl_invariant (P := IdempotencyTables.Right)
      (fun _ call hs => IdempotencyTables.right_step hs call) (IdempotencyTables.right_rebuild documents) calls
  · intro i j hi
    exact absurd hi (hnew i)
  · intro id m hm hk
    exact absurd ⟨m,hm,hk⟩ (hnew id)
  · intro k c m hc
    exact absurd hc (by simp [start])

lemma keyRows_run (h : w.KeyRows digest key) (steps : List SourceStep) :
    (w.run digest steps).KeyRows digest key :=
  RunLaws.foldl_invariant (P := KeyRows digest key) (fun _ a hw => keyRows_step hw a) h steps

/-- The candidate is written again under an active fence after the process died, and no
further step fails. Whatever happened before, the retry ends with one accepted row exactly
when the row of the key, if any, is accepted or is pending under the token of the new claim.
After a first write that went well until the process died, this is so exactly when the row
had not been committed (its first three steps), or had been accepted (from the sixth step
on), or the new claim has the old token. -/
theorem rewritten_candidate_accepted (digest : String → String) (documents : Dict ℕ Metadata)
    (calls : List IdempotencyTables.DocumentCall) (store₁ store₂ : Summary.Store)
    (clock₁ clock₂ : Summary.Time) {candidate : SourceCandidate} {f₂ : SummarySourceFence}
    {m₂ : Metadata} {k₂ : ℕ} {os₂ : List SourceOutcome} (hkey : 0 < sqlLength candidate.key)
    (hnew : ∀ j, ¬ Carries ((IdempotencyTables.rebuild documents).run calls).documents candidate.key j)
    (hactive : summarySourceFenceIsActive store₂ f₂ clock₂ = true)
    (hstamp : f₂.stamp digest candidate.keyed = some m₂) (hos : 7 ≤ os₂.length) :
    (∀ steps,
      let w := ((start ((IdempotencyTables.rebuild documents).run calls) store₁ clock₁).run digest
        steps).died digest store₂ clock₂
      RunLaws.Along (step digest) Faultless w (.begin k₂ f₂ candidate::os₂.map (.advance k₂ ·)) →
      (AcceptedOnce (w.rewrite digest k₂ f₂ candidate os₂).tables.documents candidate.key ↔
        Resumable digest candidate.key f₂ w.tables.documents)) ∧
    ∀ k₁ f₁ m₁ os₁, summarySourceFenceIsActive store₁ f₁ clock₁ = true →
      f₁.stamp digest candidate.keyed = some m₁ →
      let w₀ := start ((IdempotencyTables.rebuild documents).run calls) store₁ clock₁
      let w := (w₀.rewrite digest k₁ f₁ candidate os₁).died digest store₂ clock₂
      RunLaws.Along (step digest) Faultless w₀ (.begin k₁ f₁ candidate::os₁.map (.advance k₁ ·)) →
      RunLaws.Along (step digest) Faultless w (.begin k₂ f₂ candidate::os₂.map (.advance k₂ ·)) →
      (AcceptedOnce (w.rewrite digest k₂ f₂ candidate os₂).tables.documents candidate.key ↔
        os₁.length < 3 ∨ 6 ≤ os₁.length ∨ f₁.opaqueToken digest = f₂.opaqueToken digest) := by
  have hstart : (start ((IdempotencyTables.rebuild documents).run calls) store₁ clock₁).KeyRows
      digest candidate.key := keyRows_start store₁ clock₁ hnew
  have hgeneral : ∀ steps,
      let w := ((start ((IdempotencyTables.rebuild documents).run calls) store₁ clock₁).run digest
        steps).died digest store₂ clock₂
      RunLaws.Along (step digest) Faultless w (.begin k₂ f₂ candidate::os₂.map (.advance k₂ ·)) →
      (AcceptedOnce (w.rewrite digest k₂ f₂ candidate os₂).tables.documents candidate.key ↔
        Resumable digest candidate.key f₂ w.tables.documents) := by
    intro steps w hok
    have hrows : w.KeyRows digest candidate.key := keyRows_step (keyRows_step (keyRows_run hstart steps) _) _
    exact rewrite_accepts hrows hkey rfl hactive hstamp hos hok
  refine ⟨hgeneral,?_⟩
  intro k₁ f₁ m₁ os₁ hactive₁ hstamp₁ w₀ w hok₁ hok₂
  have hdied : AcceptedOnce (w.rewrite digest k₂ f₂ candidate os₂).tables.documents candidate.key ↔
      Resumable digest candidate.key f₂ w.tables.documents :=
    hgeneral (.begin k₁ f₁ candidate::os₁.map (.advance k₁ ·)) hok₂
  rw [hdied]
  have hretrying : Retrying digest candidate f₁ k₁ (w₀.step digest (.begin k₁ f₁ candidate))
      .started := ⟨by simp [step,w₀,start],hactive₁,keyRows_step hstart _,hkey⟩
  obtain ⟨phase,hrows,hwrites,hleft⟩ := writes_run os₁ hretrying hstamp₁ hnew hok₁.2
  have hend : w.tables = ((w₀.step digest (.begin k₁ f₁ candidate)).run digest
      (os₁.map (.advance k₁ ·))).tables := rfl
  rw [hend,resumable_iff_of_writes hrows hkey hstamp₁ hwrites,hleft]
  have hseven : stepsLeft SourcePhase.started = 7 := rfl
  constructor
  · rintro (hfour | htwo | htoken)
    · left
      omega
    · right
      left
      omega
    · exact .inr (.inr htoken)
  · rintro (hthree | hsix | htoken)
    · left
      omega
    · right
      left
      omega
    · exact .inr (.inr htoken)

def secondFence : SummarySourceFence := sampleFence 2 "second" Nat.two_pos

def diedAfter (n : ℕ) : SourceWorld :=
  (sampleStart.rewrite sampleDigest 0 firstFence sampleCandidate
    (List.replicate n { newId := 1 })).died sampleDigest (sampleClaims 2 "second") 10

/-- Died between the insert and the activation: the retry finds the row, may not activate it,
and leaves it pending. -/
theorem rewritten_candidate_stays_pending :
    ¬ AcceptedOnce ((diedAfter 4).rewrite sampleDigest 0 secondFence sampleCandidate
      (List.replicate 7 { newId := 2 })).tables.documents sampleCandidate.key := by
  rintro ⟨id,m,hm,haccepted,-,hcarries⟩
  have hpending : (((diedAfter 4).rewrite sampleDigest 0 secondFence sampleCandidate
      (List.replicate 7 { newId := 2 })).tables.documents.get? 1).any (fun m =>
        usableKey m = some sampleCandidate.key && m.summarySourcePending) = true := by
    decide +kernel
  obtain ⟨m',hm',hrow⟩ := (Option.any_eq_true _ _).mp hpending
  obtain ⟨hkey,hwaiting⟩ : usableKey m' = some sampleCandidate.key ∧
      m'.summarySourcePending = true := by simpa using hrow
  obtain rfl := (hcarries 1).mp ⟨m',hm',hkey⟩
  obtain rfl := Option.some.inj (hm.symm.trans hm')
  simp [isSummarySourceAccepted,hwaiting] at haccepted

/-- The decidable part of a faultless step: its outcome does not fail and its id is free. -/
def cleanStep (w : SourceWorld) : SourceStep → Bool
  | .advance _ o => o.readable && o.committed && (w.row o.newId).isNone
  | _ => true

lemma faultless_of_cleanStep (h : w.cleanStep a = true) : Faultless w a := by
  rintro k o rfl
  simpa [cleanStep,and_assoc] using h

theorem rewritten_candidate_accepted_sample :
    AcceptedOnce ((diedAfter 2).rewrite sampleDigest 0 secondFence sampleCandidate
      (List.replicate 3 { newId := 1 }++List.replicate 4 { newId := 2 })).tables.documents
        sampleCandidate.key := by
  have hclean : ∀ {w : SourceWorld} {steps : List SourceStep},
      RunLaws.Along (step sampleDigest) (fun w a => w.cleanStep a = true) w steps →
      RunLaws.Along (step sampleDigest) Faultless w steps := fun h =>
    RunLaws.along_imp (P := fun _ => True) (fun _ _ _ _ => trivial)
      (fun _ _ h _ => faultless_of_cleanStep h) trivial h
  refine ((rewritten_candidate_accepted sampleDigest {} [] (sampleClaims 1 "first")
    (sampleClaims 2 "second") 0 10 (by decide +kernel) ?_ (by decide +kernel) rfl
    (by decide)).2 0 firstFence _ (List.replicate 2 { newId := 1 }) (by decide +kernel) rfl
    (hclean (by decide +kernel)) (hclean (by decide +kernel))).mpr (.inl (by decide))
  rintro j ⟨m,hm,-⟩
  exact absurd hm (by simp [IdempotencyTables.rebuild,IdempotencyTables.run])

end SourceWorld

end Memora.Canonical
