import Memora.ListLaws
import Memora.WriteRepair

/-! What a repair that closes an add has inserted, and when the atoms of the memory are then
exactly those the add had staged. -/
namespace Memora.WriteOps
open Canonical

variable {es es' t : List Effect} {s : AddState} {a : Advance Payload} {atoms ins : List Atom}
  {bs : List (List Atom)}

lemma flatten_batches (atoms : List Atom) : (batches atoms).flatten = atoms := by
  unfold batches
  simp only [Nat.mul_comm _ sqliteBatchSize]
  refine ListLaws.flatten_slices ?_
  unfold sqliteBatchSize
  omega

lemma commitBatches_all {fails : ℕ → Bool}
    (h : (commitBatches fails bs).2 = true) : (commitBatches fails bs).1 = bs := by
  induction bs generalizing fails with
  | nil => rfl
  | cons b bs ih =>
    rw [commitBatches] at h ⊢
    split at h
    · cases h
    · rename_i hok
      rw [if_neg hok]
      simp only [ih h]

variable (digest : String → String) (r : AddRun) (id : ℕ) (fails : ℕ → Bool)

lemma commitBatches_prefix (bs : List (List Atom)) : (commitBatches fails bs).1 <+: bs := by
  induction bs generalizing fails with
  | nil => exact List.prefix_rfl
  | cons b bs ih =>
    rw [commitBatches]
    split
    · exact List.nil_prefix
    · exact (List.prefix_cons_inj b).mpr (ih _)

lemma insertMany_all {fails : ℕ → Bool} (h : (insertMany fails atoms).2 = true) :
    (insertMany fails atoms).1.flatten = atoms := by
  rw [insertMany,commitBatches_all h,flatten_batches]

lemma insertMany_isPrefix (atoms : List Atom) : (insertMany fails atoms).1.flatten <+: atoms := by
  obtain ⟨rest,hrest⟩ := commitBatches_prefix fails (batches atoms)
  refine ⟨rest.flatten,?_⟩
  rw [insertMany,← List.flatten_append,hrest,flatten_batches]

def Effect.stored : Effect → List Atom
  | .storeAtoms atoms => atoms
  | .advance _ | .insertDocument _ => []

def stored (es : List Effect) : List Atom := es.flatMap Effect.stored

lemma stored_append (es es' : List Effect) : stored (es++es') = stored es++stored es' := by
  simp [stored]

lemma stored_stores (bs : List (List Atom)) : stored (bs.map .storeAtoms) = bs.flatten := by
  induction bs with
  | nil => rfl
  | cons b bs ih => simp [stored,Effect.stored] at ih ⊢; exact ih

lemma applyAll_atoms (s : AddState) (es : List Effect) :
    (s.applyAll es).atoms = s.atoms++stored es := by
  induction es generalizing s with
  | nil => simp [AddState.applyAll,stored]
  | cons e es ih =>
    change ((s.apply e).applyAll es).atoms = _
    rw [ih]
    cases e <;> simp [AddState.apply,stored,Effect.stored]

def Completes (es : List Effect) : Prop := ∃ a, Effect.advance a ∈ es ∧ a.status = .completed

lemma completes_of_applyAll (hopen : s.op.status ≠ .completed)
    (h : (s.applyAll es).op.status = .completed) : Completes es := by
  induction es generalizing s with
  | nil => exact absurd h hopen
  | cons e es ih =>
    by_cases he : (s.apply e).op.status = .completed
    · cases e with
      | advance a => exact ⟨a,List.mem_cons_self,he⟩
      | insertDocument | storeAtoms => exact absurd he hopen
    · obtain ⟨a,ha,hstatus⟩ := ih he h
      exact ⟨a,List.mem_cons_of_mem _ ha,hstatus⟩

lemma Happens.mem {e : Effect} (h : Happens es t) (he : e ∈ t) : e ∈ es := by
  induction h with
  | died es => cases he
  | done _ ih =>
    rcases List.mem_cons.mp he with rfl | he
    · exact List.mem_cons_self
    · exact List.mem_cons_of_mem _ (ih he)
  | lost _ ih => exact List.mem_cons_of_mem _ (ih he)

lemma happens_take (es : List Effect) (k : ℕ) : Happens es (es.take k) := by
  induction es generalizing k with
  | nil =>
    rw [List.take_nil]
    exact .died _
  | cons e es ih =>
    cases k with
    | zero => exact .died _
    | succ k => exact .done (ih k)

lemma Happens.stored_sublist (h : Happens es t) : (stored t).Sublist (stored es) := by
  induction h with
  | died es => exact List.nil_sublist _
  | done _ ih => exact List.Sublist.append (List.Sublist.refl _) ih
  | lost _ ih => exact ih

def StaysOpen (es : List Effect) : Prop := ∀ a, Effect.advance a ∈ es → a.status ≠ .completed

lemma staysOpen_singleton (ha : a.status ≠ .completed) : StaysOpen [.advance a] := by
  intro b hb
  obtain rfl : b = a := by simpa using hb
  exact ha

lemma StaysOpen.not_completes (h : StaysOpen es) (ht : Happens es t) : ¬Completes t := by
  rintro ⟨a,ha,hstatus⟩
  exact h a (ht.mem ha) hstatus

theorem Happens.after_advance (h : Happens (.advance a::es) t) (ha : a.status ≠ .completed)
    (hclosed : Completes t) : ∃ t', Happens es t' ∧ Completes t' ∧ stored t' = stored t := by
  cases h with
  | died => exact absurd hclosed (by simp [Completes])
  | done ht =>
    obtain ⟨b,hb,hstatus⟩ := hclosed
    rcases List.mem_cons.mp hb with heq | hb
    · obtain rfl : b = a := by simpa using heq
      exact absurd hstatus ha
    · exact ⟨_,ht,⟨b,hb,hstatus⟩,rfl⟩
  | lost ht => exact ⟨t,ht,hclosed,rfl⟩

lemma Happens.after_stores (h : Happens (bs.map .storeAtoms++es) t) (hclosed : Completes t) :
    ∃ t', Happens es t' ∧ Completes t' ∧ stored t = bs.flatten++stored t' := by
  induction bs generalizing t with
  | nil => exact ⟨t,h,hclosed,rfl⟩
  | cons b bs ih =>
    cases h with
    | died => exact absurd hclosed (by simp [Completes])
    | done ht =>
      obtain ⟨a,ha,hstatus⟩ := hclosed
      rcases List.mem_cons.mp ha with heq | ha
      · cases heq
      · obtain ⟨t',ht',hclosed',hstored⟩ := ih ht ⟨a,ha,hstatus⟩
        refine ⟨t',ht',hclosed',?_⟩
        simp only [stored,Effect.stored,List.flatMap_cons,List.flatten_cons, List.append_assoc] at hstored ⊢
        rw [hstored]

@[simp] lemma missingAtoms_nil (p : Payload) (existing : List Atom) :
    RepairRun.missingAtoms p existing [] = [] := by
  simp [RepairRun.missingAtoms]

variable {R : RepairRun} {m : Memory} {raised : List Effect}

lemma stored_afterAtoms (hraised : stored raised = []) : stored (R.afterAtoms m raised) = [] := by
  unfold RepairRun.afterAtoms
  split
  · rfl
  · split
    · exact hraised
    · rfl

lemma repairFrom_closed (hopen : StaysOpen raised) (hraised : stored raised = [])
    (h : Happens (R.repairFrom s m raised) t) (hclosed : Completes t) :
    ∃ atoms, R.repairAtoms s.op.payload m = .ok atoms ∧
      stored t = RepairRun.missingAtoms s.op.payload s.atoms (if R.atomStore then atoms else []) := by
  have hafter : ∀ {t'}, Happens (R.afterAtoms m raised) t' → stored t' = [] := by
    intro t' ht'
    have hsub := ht'.stored_sublist
    rw [stored_afterAtoms hraised] at hsub
    exact List.sublist_nil.mp hsub
  unfold RepairRun.repairFrom at h
  split at h
  · exact absurd hclosed (hopen.not_completes h)
  · exact absurd hclosed ((staysOpen_singleton (by simp)).not_completes h)
  · rename_i atoms hatoms
    refine ⟨atoms,hatoms,?_⟩
    split at h
    · rename_i hwrites
      obtain ⟨hstore,-⟩ : R.atomStore = true ∧ _ := by simpa using hwrites
      rw [if_pos hstore]
      split at h
      · exact absurd hclosed (hopen.not_completes h)
      · obtain ⟨t',ht',hclosed',hstored⟩ := h.after_stores hclosed
        split at ht'
        · exact absurd hclosed' (hopen.not_completes ht')
        · rename_i hall
          obtain ⟨t'',ht'',-,hsame⟩ := ht'.after_advance (by simp) hclosed'
          rw [hstored,← hsame,hafter ht'',List.append_nil]
          exact insertMany_all (by simpa using hall)
    · rename_i hskips
      rw [hafter h]
      by_cases hstore : R.atomStore = true
      · obtain rfl : atoms = [] := by simpa [hstore] using hskips
        simp
      · simp [hstore]

lemma repairMemory_closed {id : ℕ} {pending : Bool} (hopen : StaysOpen raised)
    (hraised : stored raised = []) (h : Happens (R.repairMemory s id pending raised) t)
    (hclosed : Completes t) :
    ∃ m atoms, s.memory.filter (·.id = id) = some m ∧ R.repairAtoms s.op.payload m = .ok atoms ∧
      stored t = RepairRun.missingAtoms s.op.payload s.atoms (if R.atomStore then atoms else []) := by
  unfold RepairRun.repairMemory at h
  split at h
  · exact absurd hclosed ((staysOpen_singleton (by simp)).not_completes h)
  · split at h
    · exact absurd hclosed ((staysOpen_singleton (by simp)).not_completes h)
    · rename_i m hread
      have hmemory : s.memory.filter (·.id = id) = some m := by
        split at hread
        · exact hread
        · cases hread
      split at h
      · obtain ⟨atoms,hatoms⟩ := repairFrom_closed hopen hraised h hclosed
        exact ⟨m,atoms,hmemory,hatoms⟩
      · split at h
        · exact absurd hclosed (hopen.not_completes h)
        · exact absurd hclosed ((staysOpen_singleton (by simp)).not_completes h)
        · obtain ⟨t',ht',hclosed',hsame⟩ := h.after_advance (by simp) hclosed
          obtain ⟨atoms,hatoms,hstored⟩ := repairFrom_closed hopen hraised ht' hclosed'
          exact ⟨m,atoms,hmemory,hatoms,hsame ▸ hstored⟩

def RepairRun.memoryFor (s : AddState) : Option Memory :=
  match s.op.memoryId with
  | some id => s.memory.filter (·.id = id)
  | none => s.memory.filter fun m => some m.docId = s.op.payload.pendingDocId

def RepairRun.atomsFor (R : RepairRun) (s : AddState) : List Atom :=
  match RepairRun.memoryFor s with
  | none => []
  | some m => match R.repairAtoms s.op.payload m with
    | .error _ => []
    | .ok atoms => if R.atomStore then atoms else []

def Atom.readable (a : Atom) : Bool := a.grounded && pythonStrip a.content ≠ ""

def Payload.staged (p : Payload) : List Atom :=
  if p.failedAtoms = [] then p.atoms else p.failedAtoms

lemma filter_of_filter {o : Option Memory} {q : Memory → Bool} {m m' : Memory}
    (h : o.filter q = some m) (h' : o.filter (·.id = m.id) = some m') : m' = m := by
  cases o with
  | none => cases h
  | some o =>
    obtain ⟨rfl,-⟩ : o = m ∧ _ := by simpa [Option.filter_eq_some_iff] using h
    obtain ⟨rfl,-⟩ : o = m' ∧ _ := by simpa [Option.filter_eq_some_iff] using h'
    rfl

/-- Looking up the row of an intent writes one stage and closes nothing. -/
theorem resolvePendingAddDocument_cases (R : RepairRun) (s : AddState) :
    ∃ a : Advance Payload, a.status ≠ .completed ∧
    (R.resolvePendingAddDocument s = ([.advance a],none) ∨
        ∃ m, s.memory.filter (fun m => some m.docId = s.op.payload.pendingDocId) = some m ∧
          R.resolvePendingAddDocument s = ([.advance a],some m.id)) := by
  unfold RepairRun.resolvePendingAddDocument
  split
  · exact ⟨_,by simp,.inl rfl⟩
  · split
    · exact ⟨_,by simp,.inl rfl⟩
    · split
      · exact ⟨_,by simp,.inl rfl⟩
      · rename_i m hm
        exact ⟨_,by simp,.inr ⟨m,hm,rfl⟩⟩

lemma repairIncomplete_closed (h : Happens (R.repairIncomplete s) t) (hclosed : Completes t) :
    ∃ m atoms, RepairRun.memoryFor s = some m ∧ R.repairAtoms s.op.payload m = .ok atoms ∧
      stored t = RepairRun.missingAtoms s.op.payload s.atoms (R.atomsFor s) := by
  have hopen : StaysOpen (RepairRun.raised s) := staysOpen_singleton (by simp)
  have hraised : stored (RepairRun.raised s) = [] := rfl
  unfold RepairRun.repairIncomplete RepairRun.repairAdd at h
  split at h
  · rename_i id hid
    obtain ⟨m,atoms,hmemory,hatoms,hstored⟩ := repairMemory_closed hopen hraised h hclosed
    have hfor : RepairRun.memoryFor s = some m := by
      rw [RepairRun.memoryFor,hid]
      exact hmemory
    refine ⟨m,atoms,hfor,hatoms,?_⟩
    rw [hstored,RepairRun.atomsFor,hfor]
    simp only [hatoms]
  · rename_i hid
    obtain ⟨a,ha,hresolve | ⟨m,hm,hresolve⟩⟩ := resolvePendingAddDocument_cases R s
    · rw [hresolve] at h
      exact absurd hclosed ((staysOpen_singleton ha).not_completes h)
    · rw [hresolve] at h
      obtain ⟨t',ht',hclosed',hsame⟩ := h.after_advance ha hclosed
      obtain ⟨m',atoms,hm',hatoms,hstored⟩ := repairMemory_closed hopen hraised ht' hclosed'
      obtain rfl := filter_of_filter hm hm'
      have hfor : RepairRun.memoryFor s = some m' := by
        rw [RepairRun.memoryFor,hid]
        exact hm
      refine ⟨m',atoms,hfor,hatoms,?_⟩
      rw [← hsame,hstored,RepairRun.atomsFor,hfor]
      simp only [hatoms]

lemma map_fact_bind (v : SourceValues) (atoms : List Atom) :
    (atoms.map (Atom.bind v)).map Atom.fact = atoms.map Atom.fact := by
  rw [List.map_map]
  rfl

lemma map_fact_bindAtoms {memory : Option Memory} {fallback : Metadata} {bound : List Atom}
    (h : bindAtomsToCanonicalSource atoms memory fallback = .ok bound) :
    bound.map Atom.fact = atoms.map Atom.fact := by
  unfold bindAtomsToCanonicalSource at h
  cases hv : canonicalSourceValues memory fallback with
  | error e => rw [hv] at h; exact absurd h (by simp [Except.map])
  | ok v =>
    obtain rfl : atoms.map (Atom.bind v) = bound := by simpa [hv,Except.map] using h
    exact map_fact_bind v atoms

lemma map_fact_deserialize (memoryId : ℕ) (sessionId personaId : Option String)
    (staged : List Atom) :
    (staged.filterMap (deserializeAtomFromRepair memoryId sessionId personaId)).map Atom.fact =
      (staged.filter Atom.readable).map Atom.fact := by
  induction staged with
  | nil => rfl
  | cons a staged ih =>
    rw [List.filterMap_cons,List.filter_cons]
    by_cases hread : a.readable = true
    · have hnot : ¬(!a.grounded || decide (pythonStrip a.content = "")) = true := by
        simpa [Atom.readable] using hread
      rw [deserializeAtomFromRepair,if_neg (by simpa using hnot),if_pos hread]
      simp only [List.map_cons,ih]
      rfl
    · have hblank : (!a.grounded || decide (pythonStrip a.content = "")) = true := by
        by_contra hno
        exact hread (by simpa [Atom.readable] using hno)
      rw [deserializeAtomFromRepair,if_pos (by simpa using hblank),if_neg hread]
      exact ih

lemma map_fact_stagedAtoms {p : Payload} (h : RepairRun.stagedAtoms p m = .ok atoms) :
    atoms.map Atom.fact = (p.staged.filter Atom.readable).map Atom.fact := by
  rw [← map_fact_deserialize m.id m.metadata.sessionId m.metadata.personaId]
  change (let read := p.staged.filterMap (deserializeAtomFromRepair m.id m.metadata.sessionId
    m.metadata.personaId)
    if !read.isEmpty && !read.any Atom.sourced then
      bindAtomsToCanonicalSource read (some m) m.metadata
    else .ok read) = .ok atoms at h
  dsimp only at h
  split at h
  · exact map_fact_bindAtoms h
  · cases h
    rfl

lemma map_fact_repairAtoms {p : Payload} (h : R.repairAtoms p m = .ok atoms) :
    atoms.map Atom.fact = (p.staged.filter Atom.readable).map Atom.fact := by
  unfold RepairRun.repairAtoms at h
  split at h
  · cases h
  · rename_i read hread
    rw [← map_fact_stagedAtoms hread]
    split at h
    · cases h
      rfl
    · split at h
      · cases h
      · split at h
        · cases h
          rfl
        · split at h
          · cases h
          · rename_i bound hbound
            cases h
            exact map_fact_bindAtoms hbound

def Complete (staged stored : List Atom) : Prop :=
  (stored.map Atom.fact).Perm (staged.map Atom.fact)

lemma perm_filter_iff {p : Atom → Bool} :
    ((atoms.filter p).map Atom.fact).Perm (atoms.map Atom.fact) ↔ atoms.all p = true := by
  constructor
  · intro h
    have hlength := h.length_eq
    rw [List.length_map,List.length_map] at hlength
    rw [List.all_eq_true]
    exact List.length_filter_eq_length_iff.mp hlength
  · intro h
    rw [List.filter_eq_self.mpr (List.all_eq_true.mp h)]

/-- What a stage keeps of the payload: the staged atoms and the failed ones. -/
def Effect.KeepsAtoms : Effect → Prop
  | .advance a => ∀ patch, a.payloadPatch = some patch →
      ∀ p, (patch p).atoms = p.atoms ∧ (patch p).failedAtoms = p.failedAtoms
  | .insertDocument _ | .storeAtoms _ => True

lemma keepsAtoms_of_no_patch (ha : a.payloadPatch = none) : (Effect.advance a).KeepsAtoms := by
  intro patch hpatch
  exact absurd hpatch (by simp [ha])

lemma applyAll_keepsAtoms (h : ∀ e ∈ es, e.KeepsAtoms) :
    (s.applyAll es).op.payload.atoms = s.op.payload.atoms ∧
      (s.applyAll es).op.payload.failedAtoms = s.op.payload.failedAtoms := by
  induction es generalizing s with
  | nil => exact ⟨rfl,rfl⟩
  | cons e es ih =>
    have hstep : (s.apply e).op.payload.atoms = s.op.payload.atoms ∧
        (s.apply e).op.payload.failedAtoms = s.op.payload.failedAtoms := by
      cases e with
      | advance a =>
        cases hpatch : a.payloadPatch with
        | none => simp [AddState.apply,WriteOp.advance,hpatch]
        | some patch =>
          simpa [AddState.apply,WriteOp.advance,hpatch] using h _ List.mem_cons_self patch hpatch s.op.payload
      | insertDocument | storeAtoms => exact ⟨rfl,rfl⟩
    have hrest := ih (s := s.apply e) fun e' he' => h e' (List.mem_cons_of_mem _ he')
    exact ⟨hrest.1.trans hstep.1,hrest.2.trans hstep.2⟩

theorem happens_append (h : Happens (es++es') t) :
    Happens es t ∨ ∃ t₁ t₂, t = t₁++t₂ ∧ Happens es t₁ ∧ stored t₁ = stored es ∧
      Happens es' t₂ := by
  induction es generalizing t with
  | nil => exact .inr ⟨[],t,rfl,.died _,rfl,h⟩
  | cons e es ih =>
    cases h with
    | died => exact .inl (.died _)
    | done ht =>
      rcases ih ht with hfirst | ⟨t₁,t₂,rfl,hfirst,hstored,hsecond⟩
      · exact .inl (.done hfirst)
      · refine .inr ⟨e::t₁,t₂,rfl,.done hfirst,?_,hsecond⟩
        simp only [stored,List.flatMap_cons] at hstored ⊢
        rw [hstored]
    | lost ht =>
      rcases ih ht with hfirst | ⟨t₁,t₂,rfl,hfirst,hstored,hsecond⟩
      · exact .inl (.lost hfirst)
      · exact .inr ⟨t₁,t₂,rfl,.lost hfirst,hstored,hsecond⟩

lemma Happens.keeps (h : Happens es t) (hkeep : ∀ e ∈ es, e.KeepsAtoms) :
    ∀ e ∈ t, e.KeepsAtoms :=
  fun e he => hkeep e (h.mem he)

lemma failedAtoms_of_partial {head tail : List Effect} {failed : List Atom}
    (hhead : ∀ e ∈ head, e.KeepsAtoms) (htail : ∀ e ∈ tail, e.KeepsAtoms)
    (hstored : stored tail = [])
    (hpatch : a.payloadPatch = some fun p => { p with failedAtoms := failed })
    (h : Happens (head++.advance a::tail) t) : (s.applyAll t).op.payload.atoms = s.op.payload.atoms ∧
      ((s.applyAll t).op.payload.failedAtoms = s.op.payload.failedAtoms ∨
        (s.applyAll t).op.payload.failedAtoms = failed ∧ stored t = stored head) := by
  have hkept : ∀ {t'}, (∀ e ∈ t', e.KeepsAtoms) → (s.applyAll t').op.payload.atoms = s.op.payload.atoms ∧
        ((s.applyAll t').op.payload.failedAtoms = s.op.payload.failedAtoms ∨
          (s.applyAll t').op.payload.failedAtoms = failed ∧ stored t' = stored head) := by
    intro t' hkeep
    have hsame := applyAll_keepsAtoms (s := s) hkeep
    exact ⟨hsame.1,.inl hsame.2⟩
  rcases happens_append h with hfirst | ⟨t₁,t₂,rfl,hfirst,hfirstStored,hrest⟩
  · exact hkept (hfirst.keeps hhead)
  · have hbefore := applyAll_keepsAtoms (s := s) (hfirst.keeps hhead)
    cases hrest with
    | died =>
      rw [List.append_nil]
      exact hkept (hfirst.keeps hhead)
    | @done _ _ t₃ hlast =>
      -- The advance is there: the failed atoms are in the payload from here on.
      have happly : s.applyAll (t₁++.advance a::t₃) = ((s.applyAll t₁).apply (.advance a)).applyAll t₃ := by
        simp [AddState.applyAll]
      have hafter := applyAll_keepsAtoms (s := (s.applyAll t₁).apply (.advance a)) (hlast.keeps htail)
      have hnone : stored t₃ = [] := by
        have hsub := hlast.stored_sublist
        rw [hstored] at hsub
        exact List.sublist_nil.mp hsub
      rw [happly,hafter.1,hafter.2]
      refine ⟨?_,.inr ⟨?_,?_⟩⟩
      · simpa [AddState.apply,WriteOp.advance,hpatch] using hbefore.1
      · simp [AddState.apply,WriteOp.advance,hpatch]
      · rw [stored_append,hfirstStored]
        change stored head++stored t₃ = _
        rw [hnone,List.append_nil]
    | lost hlast =>
      apply hkept
      intro e he
      rcases List.mem_append.mp he with he | he
      · exact hfirst.keeps hhead e he
      · exact hlast.keeps htail e he

lemma storeSingles_perm (atoms : List Atom) :
    (stored (AddRun.storeSingles fails atoms).1++(AddRun.storeSingles fails atoms).2).Perm
      atoms := by
  induction atoms generalizing fails with
  | nil => exact List.Perm.nil
  | cons a atoms ih =>
    rw [AddRun.storeSingles]
    split
    · exact List.perm_middle.trans ((ih _).cons a)
    · exact (ih _).cons a

lemma storeBound_perm (bound : List Atom) :
    (stored (r.storeBound bound).1++(r.storeBound bound).2).Perm bound := by
  unfold AddRun.storeBound
  dsimp only
  split
  · rename_i hall
    rw [stored_stores,List.append_nil,insertMany_all hall]
  · rw [stored_append,stored_stores,List.append_assoc]
    have hsplit := List.prefix_iff_eq_append.mp (insertMany_isPrefix r.batchFails bound)
    exact (List.Perm.append_left _ (storeSingles_perm _ _)).trans (List.Perm.of_eq hsplit)

lemma storedAtoms_perm : ((stored (r.storedAtoms id).1++(r.storedAtoms id).2).map Atom.fact).Perm
      (r.atoms.map Atom.fact) := by
  unfold AddRun.storedAtoms
  split
  · exact List.Perm.refl _
  · rename_i bound hbound
    rw [← map_fact_bindAtoms hbound]
    exact (storeBound_perm r bound).map _

def AddRun.start (opId : ℕ) : AddState where
  op := { id := opId, opType := .add, payload := r.payload digest }

def AddRun.prelude : List Effect :=
  (if r.ports && r.embeds then
    [.advance
      { step := .documentIntent
        payloadPatch := some fun p => { p with pendingDocId := some r.docId } }]
  else [])++r.documentStage digest id ++
    if r.writesAtoms then (r.storedAtoms id).1 else []

lemma stored_prelude (hwrites : r.writesAtoms) :
    stored (r.prelude digest id) = stored (r.storedAtoms id).1 := by
  rw [AddRun.prelude,stored_append,stored_append,if_pos hwrites]
  have hintent : stored (if r.ports && r.embeds then
      [.advance
        { step := .documentIntent
          payloadPatch := some fun p => { p with pendingDocId := some r.docId } }]
    else []) = [] := by
    split <;> rfl
  have hdocument : stored (r.documentStage digest id) = [] := by
    unfold AddRun.documentStage
    split <;> rfl
  rw [hintent,hdocument,List.nil_append,List.nil_append]

lemma keepsAtoms_storedAtoms :
    ∀ e ∈ (r.storedAtoms id).1, e.KeepsAtoms := by
  have hsingles : ∀ fails atoms, ∀ e ∈ (AddRun.storeSingles fails atoms).1, e.KeepsAtoms := by
    intro fails atoms
    induction atoms generalizing fails with
    | nil => simp [AddRun.storeSingles]
    | cons a atoms ih =>
      rw [AddRun.storeSingles]
      split
      · exact ih _
      · exact List.forall_mem_cons.mpr ⟨trivial,ih _⟩
  have hstores : ∀ bs : List (List Atom), ∀ e ∈ bs.map Effect.storeAtoms, e.KeepsAtoms := by
    intro bs e he
    obtain ⟨b,-,rfl⟩ := List.mem_map.mp he
    trivial
  unfold AddRun.storedAtoms
  split
  · simp
  · unfold AddRun.storeBound
    dsimp only
    split
    · exact hstores _
    · exact List.forall_mem_append.mpr ⟨hstores _,hsingles _ _⟩

lemma keepsAtoms_prelude :
    ∀ e ∈ r.prelude digest id, e.KeepsAtoms := by
  unfold AddRun.prelude
  rw [List.forall_mem_append,List.forall_mem_append]
  refine ⟨⟨?_,?_⟩,?_⟩
  · split
    · simp [Effect.KeepsAtoms]
    · simp
  · unfold AddRun.documentStage
    split <;> simp [Effect.KeepsAtoms]
  · split
    · exact keepsAtoms_storedAtoms r id
    · simp

lemma keepsAtoms_graph_closing :
    ∀ e ∈ r.graphStage id::r.closing id, e.KeepsAtoms := by
  rw [List.forall_mem_cons]
  constructor
  · unfold AddRun.graphStage
    split
    · simp [Effect.KeepsAtoms]
    · split <;> simp [Effect.KeepsAtoms]
  · unfold AddRun.closing
    split <;> simp [Effect.KeepsAtoms]

lemma stored_graph_closing : stored (r.graphStage id::r.closing id) = [] := by
  unfold AddRun.graphStage AddRun.closing
  split <;> split <;> first | rfl | (split <;> rfl)

lemma atomStage_eq :
    ∃ a : Advance Payload, r.atomStage id = (if r.writesAtoms then (r.storedAtoms id).1 else [])++[.advance a] ∧
      (a.payloadPatch = none ∨ r.writesAtoms ∧
        a.payloadPatch = some fun p => { p with failedAtoms := (r.storedAtoms id).2 }) := by
  unfold AddRun.atomStage
  split
  · rename_i hwrites
    split
    · exact ⟨_,rfl,.inl rfl⟩
    · exact ⟨_,rfl,.inr ⟨hwrites,rfl⟩⟩
  · exact ⟨_,rfl,.inl rfl⟩

lemma effects_eq {id : ℕ} (hrow : r.row = some id) :
    ∃ a : Advance Payload, r.effects digest =
    r.prelude digest id++.advance a::(r.graphStage id::r.closing id) ∧
      (a.payloadPatch = none ∨ r.writesAtoms ∧
        a.payloadPatch = some fun p => { p with failedAtoms := (r.storedAtoms id).2 }) := by
  obtain ⟨a,hstage,ha⟩ := atomStage_eq r id
  refine ⟨a,?_,ha⟩
  rw [AddRun.effects,AddRun.prelude,hrow]
  dsimp only
  rw [hstage]
  simp only [List.append_assoc,List.cons_append,List.nil_append]

theorem crashed_add (opId : ℕ) (h : Happens (r.effects digest) t) :
    ((r.start digest opId).applyAll t).op.payload.atoms = r.atoms ∧
      (((r.start digest opId).applyAll t).op.payload.failedAtoms = [] ∨
        Complete r.atoms (((r.start digest opId).applyAll t).atoms ++
          ((r.start digest opId).applyAll t).op.payload.failedAtoms)) := by
  have hkept : ∀ {es}, r.effects digest = es → (∀ e ∈ es, e.KeepsAtoms) →
      ((r.start digest opId).applyAll t).op.payload.atoms = r.atoms ∧
        ((r.start digest opId).applyAll t).op.payload.failedAtoms = [] := by
    intro es hes hkeep
    rw [hes] at h
    exact applyAll_keepsAtoms (s := r.start digest opId) (h.keeps hkeep)
  cases hrow : r.row with
  | none =>
    have hsame := hkept rfl (by
      unfold AddRun.effects
      rw [hrow,List.forall_mem_append]
      constructor
      · split <;> simp [Effect.KeepsAtoms]
      · dsimp only
        split <;> simp [Effect.KeepsAtoms])
    exact ⟨hsame.1,.inl hsame.2⟩
  | some id =>
    obtain ⟨a,heffects,hnone | ⟨hwrites,hpatch⟩⟩ := effects_eq digest r hrow
    · have hsame := hkept heffects (by
        rw [List.forall_mem_append,List.forall_mem_cons]
        exact ⟨keepsAtoms_prelude digest r id,keepsAtoms_of_no_patch hnone, keepsAtoms_graph_closing r id⟩)
      exact ⟨hsame.1,.inl hsame.2⟩
    · rw [heffects] at h
      obtain ⟨hatoms,hfailed⟩ := failedAtoms_of_partial (s := r.start digest opId)
        (keepsAtoms_prelude digest r id) (keepsAtoms_graph_closing r id) (stored_graph_closing r id) hpatch h
      refine ⟨hatoms,hfailed.imp (fun hsame => hsame) fun ⟨hfailed,hstored⟩ => ?_⟩
      rw [hfailed,applyAll_atoms,hstored,stored_prelude digest r id hwrites]
      exact storedAtoms_perm r id

lemma keepsAtoms_afterAtoms (hraised : ∀ e ∈ raised, e.KeepsAtoms) :
    ∀ e ∈ R.afterAtoms m raised, e.KeepsAtoms := by
  unfold RepairRun.afterAtoms
  split
  · simp [Effect.KeepsAtoms]
  · split
    · exact hraised
    · rename_i a ha
      have hnone : a.payloadPatch = none := by
        unfold RepairRun.deriveGraphStage at ha
        split at ha
        · cases ha
          rfl
        · split at ha <;> simp at ha <;> (try subst ha) <;> rfl
      exact List.forall_mem_cons.mpr ⟨keepsAtoms_of_no_patch hnone,by simp [Effect.KeepsAtoms]⟩

lemma keepsAtoms_repairFrom (hraised : ∀ e ∈ raised, e.KeepsAtoms) :
    ∀ e ∈ R.repairFrom s m raised, e.KeepsAtoms := by
  unfold RepairRun.repairFrom
  split
  · exact hraised
  · simp [Effect.KeepsAtoms]
  · split
    · split
      · exact hraised
      · rw [List.forall_mem_append]
        constructor
        · intro e he
          obtain ⟨b,-,rfl⟩ := List.mem_map.mp he
          trivial
        · split
          · exact hraised
          · exact List.forall_mem_cons.mpr ⟨keepsAtoms_of_no_patch rfl,keepsAtoms_afterAtoms hraised⟩
    · exact keepsAtoms_afterAtoms hraised

lemma keepsAtoms_repairMemory {id : ℕ} {pending : Bool} (hraised : ∀ e ∈ raised, e.KeepsAtoms) :
    ∀ e ∈ R.repairMemory s id pending raised, e.KeepsAtoms := by
  unfold RepairRun.repairMemory
  split
  · simp [Effect.KeepsAtoms]
  · split
    · simp [Effect.KeepsAtoms]
    · split
      · exact keepsAtoms_repairFrom hraised
      · split
        · exact hraised
        · simp [Effect.KeepsAtoms]
        · exact List.forall_mem_cons.mpr ⟨by simp [Effect.KeepsAtoms],keepsAtoms_repairFrom hraised⟩

lemma keepsAtoms_repairIncomplete : ∀ e ∈ R.repairIncomplete s, e.KeepsAtoms := by
  have hraised : ∀ e ∈ RepairRun.raised s, e.KeepsAtoms := by
    simp [RepairRun.raised,Effect.KeepsAtoms]
  have hresolve : ∀ e ∈ (R.resolvePendingAddDocument s).1, e.KeepsAtoms := by
    unfold RepairRun.resolvePendingAddDocument
    split
    · simp [Effect.KeepsAtoms]
    · split
      · simp [Effect.KeepsAtoms]
      · split <;> simp [Effect.KeepsAtoms]
  unfold RepairRun.repairIncomplete RepairRun.repairAdd
  split
  · exact keepsAtoms_repairMemory hraised
  · split
    · rename_i es hes
      rwa [hes] at hresolve
    · rename_i es id hes
      rw [hes] at hresolve
      exact List.forall_mem_append.mpr ⟨hresolve,keepsAtoms_repairMemory hraised⟩

lemma keepsAtoms_finalizeAddDerivation {id : ℕ} :
    ∀ e ∈ R.finalizeAddDerivation s id, e.KeepsAtoms :=
  keepsAtoms_repairMemory (by simp [Effect.KeepsAtoms])

/-- The states of an add after its process died: repairs and the finishing of a staged source
run, each as far as it gets, and others rewrite or delete the memory. -/
inductive AddHistory (digest : String → String) (r : AddRun) : AddState → Prop
  | crashed (opId : ℕ) {t : List Effect} :
      Happens (r.effects digest) t → AddHistory digest r ((r.start digest opId).applyAll t)
  | repaired {s : AddState} {R : RepairRun} {t : List Effect} :
      AddHistory digest r s → Happens (R.repairIncomplete s) t →
        AddHistory digest r (s.applyAll t)
  | finalized {s : AddState} {R : RepairRun} {id : ℕ} {t : List Effect} :
      AddHistory digest r s → Happens (R.finalizeAddDerivation s id) t →
        AddHistory digest r (s.applyAll t)
  | marked {s : AddState} (step : OpStep) :
      AddHistory digest r s → AddHistory digest r { s with op := { s.op with step } }
  | rewritten {s : AddState} (memory : Option Memory) :
      AddHistory digest r s → AddHistory digest r { s with memory }

lemma AddHistory.payload_atoms {digest : String → String} {r : AddRun} (h : AddHistory digest r s) :
    s.op.payload.atoms = r.atoms := by
  induction h with
  | crashed opId ht => exact (crashed_add digest r opId ht).1
  | repaired _ ht ih =>
    exact (applyAll_keepsAtoms (ht.keeps keepsAtoms_repairIncomplete)).1.trans ih
  | finalized _ ht ih =>
    exact (applyAll_keepsAtoms (ht.keeps keepsAtoms_finalizeAddDerivation)).1.trans ih
  | marked _ _ ih | rewritten _ _ ih => exact ih

/-- An atom with this fact is stored in the session and persona of the memory. -/
def RepairRun.matched (s : AddState) (fact : String × AtomType) : Bool :=
  (RepairRun.memoryFor s).any fun m => s.atoms.any fun a =>
    a.fact = fact && a.sessionId = m.metadata.sessionId && a.personaId = m.metadata.personaId

/-- How many of the failed atoms with this fact a repair puts in that gets to the end. -/
def RepairRun.insertable (R : RepairRun) (s : AddState) (fact : String × AtomType) : ℕ :=
  if R.atomStore && !RepairRun.matched s fact then
    ((s.op.payload.failedAtoms.filter Atom.readable).map Atom.fact).count fact
  else 0

def RepairRun.Completing (R : RepairRun) (staged : List Atom) (s : AddState) : Prop :=
  if s.op.payload.failedAtoms = [] then
    Complete staged s.atoms ∨ s.atoms = [] ∧ R.atomStore ∧ staged.all Atom.readable
  else ∀ a ∈ s.op.payload.failedAtoms,
    (s.atoms.map Atom.fact).count a.fact+R.insertable s a.fact = (staged.map Atom.fact).count a.fact

def Atom.Follows (m : Memory) (a : Atom) : Prop :=
  a.sessionId = m.metadata.sessionId ∧ a.personaId = m.metadata.personaId

lemma canonicalSourceValues_follows {v : SourceValues}
    (h : canonicalSourceValues (some m) m.metadata = .ok v) :
    v.sessionId = m.metadata.sessionId ∧ v.personaId = m.metadata.personaId := by
  unfold canonicalSourceValues at h
  dsimp only at h
  split at h
  · cases h
  · split at h
    · cases h
    · split at h
      · cases h
      · split at h
        · cases h
        · split at h
          · cases h
            exact ⟨Option.or_self,Option.or_self⟩
          · cases h

lemma bindAtoms_follow {bound : List Atom}
    (h : bindAtomsToCanonicalSource atoms (some m) m.metadata = .ok bound) :
    ∀ a ∈ bound, a.Follows m := by
  unfold bindAtomsToCanonicalSource at h
  cases hv : canonicalSourceValues (some m) m.metadata with
  | error e => rw [hv] at h; exact absurd h (by simp [Except.map])
  | ok v =>
    obtain rfl : atoms.map (Atom.bind v) = bound := by simpa [hv,Except.map] using h
    intro a ha
    obtain ⟨b,-,rfl⟩ := List.mem_map.mp ha
    exact canonicalSourceValues_follows hv

lemma validated_follow (hsourced : atoms.any Atom.sourced = true)
    (h : validateBoundAtoms atoms (some m) m.metadata = none) : ∀ a ∈ atoms, a.Follows m := by
  unfold validateBoundAtoms at h
  rw [hsourced] at h
  cases hv : canonicalSourceValues (some m) m.metadata with
  | error e => rw [hv] at h; cases h
  | ok v =>
    rw [hv] at h
    intro a ha
    have hnone : a.mismatch v = none := List.findSome?_eq_none_iff.mp h a ha
    obtain ⟨hsession,hpersona⟩ := canonicalSourceValues_follows hv
    by_contra hother
    have hdiffers : a.sessionId ≠ v.sessionId ∨ a.personaId ≠ v.personaId := by
      rw [hsession,hpersona]
      exact Decidable.not_and_iff_not_or_not.mp hother
    unfold Atom.mismatch at hnone
    split_ifs at hnone

lemma stagedAtoms_cases {p : Payload} (h : RepairRun.stagedAtoms p m = .ok atoms) :
    (∃ read, bindAtomsToCanonicalSource read (some m) m.metadata = .ok atoms) ∨
      atoms = [] ∨ atoms.any Atom.sourced = true := by
  change (let read := p.staged.filterMap (deserializeAtomFromRepair m.id m.metadata.sessionId
    m.metadata.personaId)
    if !read.isEmpty && !read.any Atom.sourced then
      bindAtomsToCanonicalSource read (some m) m.metadata
    else .ok read) = .ok atoms at h
  dsimp only at h
  split at h
  · exact .inl ⟨_,h⟩
  · rename_i hbound
    cases h
    right
    by_contra hneither
    exact hbound (by simpa using hneither)

theorem repairAtoms_follow {p : Payload} (h : R.repairAtoms p m = .ok atoms) :
    ∀ a ∈ atoms, a.Follows m := by
  unfold RepairRun.repairAtoms at h
  split at h
  · cases h
  · rename_i read hread
    split at h
    · rename_i hvalid
      cases h
      by_cases hsourced : atoms.any Atom.sourced = true
      · exact validated_follow hsourced hvalid
      · obtain ⟨_,hbound⟩ | rfl | hany := stagedAtoms_cases hread
        · exact bindAtoms_follow hbound
        · simp
        · exact absurd hany hsourced
    · split at h
      · cases h
      · split at h
        · rename_i hempty
          cases h
          simp [List.isEmpty_iff.mp hempty]
        · split at h
          · cases h
          · rename_i bound hbound
            cases h
            exact bindAtoms_follow hbound

lemma contains_repairKey (hm : RepairRun.memoryFor s = some m) {a : Atom} (ha : a.Follows m) :
    (s.atoms.map Atom.repairKey).contains a.repairKey = RepairRun.matched s a.fact := by
  rw [Bool.eq_iff_iff,RepairRun.matched,hm]
  simp only [List.contains_iff_mem,List.mem_map,Option.any_some,List.any_eq_true,Bool.and_eq_true,
    decide_eq_true_eq]
  refine exists_congr fun b => and_congr_right fun _ => ?_
  rw [← ha.1,← ha.2]
  simp [Atom.repairKey,Atom.fact,and_assoc]

lemma closed_atoms (hopen : s.op.status ≠ .completed)
    (ht : Happens (R.repairIncomplete s) t) (hclosed : (s.applyAll t).op.status = .completed) :
    (s.applyAll t).atoms = s.atoms++RepairRun.missingAtoms s.op.payload s.atoms (R.atomsFor s) ∧
      (R.atomsFor s).map Atom.fact =
        ((if R.atomStore then s.op.payload.staged else []).filter Atom.readable).map Atom.fact := by
  obtain ⟨m,atoms,hfor,hatoms,hstored⟩ := repairIncomplete_closed ht
    (completes_of_applyAll hopen hclosed)
  refine ⟨?_,?_⟩
  · rw [applyAll_atoms,hstored]
  · rw [RepairRun.atomsFor,hfor]
    simp only [hatoms]
    split
    · exact map_fact_repairAtoms hatoms
    · rfl

theorem count_missingAtoms (hfailed : s.op.payload.failedAtoms ≠ []) (fact : String × AtomType)
    (hfacts : (R.atomsFor s).map Atom.fact =
      ((if R.atomStore then s.op.payload.staged else []).filter Atom.readable).map Atom.fact) :
    ((RepairRun.missingAtoms s.op.payload s.atoms (R.atomsFor s)).map Atom.fact).count fact =
      R.insertable s fact := by
  have hmatched : ∀ a ∈ R.atomsFor s,
      (s.atoms.map Atom.repairKey).contains a.repairKey = RepairRun.matched s a.fact := by
    intro a ha
    unfold RepairRun.atomsFor at ha
    cases hm : RepairRun.memoryFor s with
    | none => simp [hm] at ha
    | some m =>
      simp only [hm] at ha
      split at ha
      · cases ha
      · rename_i atoms hatoms
        split at ha
        · exact contains_repairKey hm (repairAtoms_follow hatoms a ha)
        · cases ha
  rw [RepairRun.missingAtoms,if_pos hfailed,
    List.filter_congr fun a ha => by rw [hmatched a ha],
    ← Function.comp_def (fun fact => !RepairRun.matched s fact) Atom.fact,← List.filter_map,hfacts,
    Payload.staged,if_neg hfailed,RepairRun.insertable]
  cases hfact : RepairRun.matched s fact with
  | true =>
    simp only [Bool.not_true,Bool.and_false,Bool.false_eq_true,if_false]
    exact List.count_eq_zero_of_not_mem fun hmem => by simp [hfact] at hmem
  | false =>
    rw [List.count_filter (by simp [hfact])]
    cases R.atomStore <;> simp

theorem stored_repairMemory {id : ℕ} {pending : Bool} (hraised : stored raised = [])
    (h : Happens (R.repairMemory s id pending raised) t) :
    ∀ a ∈ stored t, a.fact ∈ s.op.payload.staged.map Atom.fact := by
  have hfrom : ∀ m, ∀ a ∈ stored (R.repairFrom s m raised),
      a.fact ∈ s.op.payload.staged.map Atom.fact := by
    intro m a ha
    unfold RepairRun.repairFrom at ha
    split at ha
    · simp [hraised] at ha
    · simp [stored,Effect.stored] at ha
    · rename_i atoms hatoms
      have hmissing : a ∈ RepairRun.missingAtoms s.op.payload s.atoms atoms := by
        split at ha
        · split at ha
          · simp [hraised] at ha
          · rw [stored_append,stored_stores] at ha
            refine (insertMany_isPrefix R.batchFails _).subset ((List.mem_append.mp ha).resolve_right ?_)
            split
            · simp [hraised]
            · intro hlast
              change a ∈ stored (R.afterAtoms m raised) at hlast
              simp [stored_afterAtoms hraised] at hlast
        · simp [stored_afterAtoms hraised] at ha
      have hread : a ∈ atoms := by
        unfold RepairRun.missingAtoms at hmissing
        split at hmissing
        · exact List.mem_of_mem_filter hmissing
        · split at hmissing
          · exact hmissing
          · cases hmissing
      have hfact := List.mem_map_of_mem (f := Atom.fact) hread
      rw [map_fact_repairAtoms hatoms] at hfact
      exact List.map_subset _ List.filter_sublist.subset hfact
  intro a ha
  replace ha := h.stored_sublist.subset ha
  unfold RepairRun.repairMemory at ha
  split at ha
  · simp [stored,Effect.stored] at ha
  · split at ha
    · simp [stored,Effect.stored] at ha
    · split at ha
      · exact hfrom _ a ha
      · split at ha
        · simp [hraised] at ha
        · simp [stored,Effect.stored] at ha
        · exact hfrom _ a ha

lemma stored_repairIncomplete (h : Happens (R.repairIncomplete s) t) :
    ∀ a ∈ stored t, a.fact ∈ s.op.payload.staged.map Atom.fact := by
  have hraised : stored (RepairRun.raised s) = [] := rfl
  unfold RepairRun.repairIncomplete RepairRun.repairAdd at h
  split at h
  · exact stored_repairMemory hraised h
  · obtain ⟨a,-,hresolve | ⟨m,-,hresolve⟩⟩ := resolvePendingAddDocument_cases R s
    · rw [hresolve] at h
      intro b hb
      cases h.stored_sublist.subset hb
    · rw [hresolve] at h
      cases h with
      | died => simp [stored]
      | done ht => exact fun b hb => stored_repairMemory hraised ht b hb
      | lost ht => exact stored_repairMemory hraised ht

/-- With failed atoms on record, the other facts are stored as often as they were staged. -/
theorem AddHistory.others_stored {digest : String → String} {r : AddRun} (h : AddHistory digest r s)
    (hfailed : s.op.payload.failedAtoms ≠ []) {fact : String × AtomType}
    (hother : fact ∉ s.op.payload.failedAtoms.map Atom.fact) :
    (s.atoms.map Atom.fact).count fact = (r.atoms.map Atom.fact).count fact := by
  have hkept : ∀ {s : AddState} {t : List Effect}, (∀ e ∈ t, e.KeepsAtoms) →
      (∀ a ∈ stored t, a.fact ∈ s.op.payload.staged.map Atom.fact) →
      (s.applyAll t).op.payload.failedAtoms ≠ [] →
      fact ∉ (s.applyAll t).op.payload.failedAtoms.map Atom.fact →
      (s.op.payload.failedAtoms ≠ [] → fact ∉ s.op.payload.failedAtoms.map Atom.fact →
        (s.atoms.map Atom.fact).count fact = (r.atoms.map Atom.fact).count fact) →
      ((s.applyAll t).atoms.map Atom.fact).count fact = (r.atoms.map Atom.fact).count fact := by
    intro s t hkeeps hstored hfailed hother ih
    rw [(applyAll_keepsAtoms hkeeps).2] at hfailed hother
    rw [Payload.staged,if_neg hfailed] at hstored
    have hnew : ((stored t).map Atom.fact).count fact = 0 := by
      refine List.count_eq_zero_of_not_mem fun hmem => ?_
      obtain ⟨a,ha,rfl⟩ := List.mem_map.mp hmem
      exact hother (hstored a ha)
    rw [applyAll_atoms,List.map_append,List.count_append,ih hfailed hother,hnew,Nat.add_zero]
  induction h with
  | crashed opId ht =>
    have hperm := (crashed_add digest r opId ht).2.resolve_left hfailed
    have hcount := List.Perm.count_eq hperm fact
    rwa [List.map_append,List.count_append,List.count_eq_zero_of_not_mem hother,Nat.add_zero] at hcount
  | repaired _ ht ih =>
    exact hkept (ht.keeps keepsAtoms_repairIncomplete) (stored_repairIncomplete ht) hfailed hother ih
  | finalized _ ht ih =>
    exact hkept (ht.keeps keepsAtoms_finalizeAddDerivation) (stored_repairMemory rfl ht) hfailed
      hother ih
  | marked _ _ ih | rewritten _ _ ih => exact ih hfailed hother

lemma complete_iff_completing {digest : String → String} {r : AddRun} (hs : AddHistory digest r s)
    (hopen : s.op.status ≠ .completed)
    (ht : Happens (R.repairIncomplete s) t) (hclosed : (s.applyAll t).op.status = .completed) :
    Complete r.atoms (s.applyAll t).atoms ↔ R.Completing r.atoms s := by
  obtain ⟨hatoms,hfacts⟩ := closed_atoms hopen ht hclosed
  rw [hatoms,RepairRun.Completing]
  by_cases hnone : s.op.payload.failedAtoms = []
  · rw [if_pos hnone,RepairRun.missingAtoms,if_neg (by simpa using hnone)]
    by_cases hempty : s.atoms = []
    · rw [if_pos hempty,hempty,List.nil_append]
      rw [Payload.staged,if_pos hnone,hs.payload_atoms] at hfacts
      unfold Complete
      rw [hfacts]
      by_cases hstore : R.atomStore = true
      · rw [if_pos hstore,perm_filter_iff]
        refine ⟨fun h => .inr ⟨rfl,hstore,h⟩,?_⟩
        rintro (hperm | ⟨-,-,h⟩)
        · have hnil : r.atoms = [] := by simpa using hperm.symm.length_eq
          simp [hnil]
        · exact h
      · rw [if_neg hstore]
        refine ⟨fun h => .inl h,?_⟩
        rintro (h | ⟨-,h,-⟩)
        · exact h
        · exact absurd h hstore
    · rw [if_neg hempty,List.append_nil]
      refine ⟨fun h => .inl h,?_⟩
      rintro (h | ⟨h,-,-⟩)
      · exact h
      · exact absurd h hempty
  · rw [if_neg hnone,Complete,List.perm_iff_count,List.map_append]
    simp only [List.count_append,count_missingAtoms hnone _ hfacts]
    constructor
    · intro h a _
      exact h a.fact
    · intro h fact
      by_cases hmem : fact ∈ s.op.payload.failedAtoms.map Atom.fact
      · obtain ⟨a,ha,rfl⟩ := List.mem_map.mp hmem
        exact h a ha
      · have hnothing : R.insertable s fact = 0 := by
          unfold RepairRun.insertable
          split
          · refine List.count_eq_zero_of_not_mem fun h => hmem ?_
            exact List.map_subset _ List.filter_sublist.subset h
          · rfl
        rw [hnothing,hs.others_stored hnone hmem,Nat.add_zero]

lemma count_readable_iff (fact : String × AtomType) :
    ((atoms.filter Atom.readable).map Atom.fact).count fact = (atoms.map Atom.fact).count fact ↔
      ∀ a ∈ atoms, a.fact = fact → a.readable = true := by
  induction atoms with
  | nil => simp
  | cons a atoms ih =>
    have hle : ((atoms.filter Atom.readable).map Atom.fact).count fact ≤
        (atoms.map Atom.fact).count fact := (List.filter_sublist.map _).count_le _
    rw [List.forall_mem_cons,← ih,List.filter_cons]
    by_cases hread : a.readable = true <;> by_cases hfact : a.fact = fact <;>
      simp [hread,hfact]
    omega

/-- With failed atoms on record that are just those not stored, the repair completes the
atoms when it can read all of them back and finds none of them stored. -/
theorem completing_failed {staged : List Atom} (hfailed : s.op.payload.failedAtoms ≠ [])
    (hmissing : Complete staged (s.atoms++s.op.payload.failedAtoms)) :
    R.Completing staged s ↔ R.atomStore ∧ s.op.payload.failedAtoms.all Atom.readable ∧
      ∀ a ∈ s.op.payload.failedAtoms, RepairRun.matched s a.fact = false := by
  have hone : ∀ a ∈ s.op.payload.failedAtoms,
      ((s.atoms.map Atom.fact).count a.fact+R.insertable s a.fact = (staged.map Atom.fact).count a.fact ↔
        R.atomStore ∧ RepairRun.matched s a.fact = false ∧
          ∀ b ∈ s.op.payload.failedAtoms, b.fact = a.fact → b.readable = true) := by
    intro a ha
    have hcount := List.Perm.count_eq hmissing a.fact
    rw [List.map_append,List.count_append] at hcount
    rw [← count_readable_iff,← hcount,Nat.add_left_cancel_iff,RepairRun.insertable]
    have hthere : 0 < (s.op.payload.failedAtoms.map Atom.fact).count a.fact :=
      List.count_pos_iff.mpr (List.mem_map_of_mem ha)
    cases R.atomStore <;> cases RepairRun.matched s a.fact <;> simp <;> omega
  rw [RepairRun.Completing,if_neg hfailed,forall₂_congr hone,List.all_eq_true]
  obtain ⟨a,ha⟩ := List.exists_mem_of_ne_nil _ hfailed
  constructor
  · intro h
    exact ⟨(h a ha).1,fun b hb => (h b hb).2.2 b hb rfl,fun b hb => (h b hb).2.1⟩
  · rintro ⟨hstore,hread,hmatched⟩ b hb
    exact ⟨hstore,hmatched b hb,fun c hc _ => hread c hc⟩

/-- A repair that closes an add, at any point of its history: the atoms are the staged ones
exactly when the state before was completing. Where the repair is the first one after the
process died with failed atoms on record, it has to be able to read all of them back and to
find none of them stored. -/
theorem closed_add_complete (digest : String → String) (r : AddRun) {s : AddState}
    {R : RepairRun} {t : List Effect} (hs : AddHistory digest r s)
    (hopen : s.op.status ≠ .completed) (ht : Happens (R.repairIncomplete s) t)
    (hclosed : (s.applyAll t).op.status = .completed) :
    (Complete r.atoms (s.applyAll t).atoms ↔ R.Completing r.atoms s) ∧
      ∀ opId t₀, Happens (r.effects digest) t₀ → s = (r.start digest opId).applyAll t₀ →
        s.op.payload.failedAtoms ≠ [] → (Complete r.atoms (s.applyAll t).atoms ↔
          R.atomStore ∧ s.op.payload.failedAtoms.all Atom.readable ∧
            ∀ a ∈ s.op.payload.failedAtoms, RepairRun.matched s a.fact = false) := by
  have hiff := complete_iff_completing hs hopen ht hclosed
  refine ⟨hiff,?_⟩
  rintro opId t₀ ht₀ rfl hfailed
  exact hiff.trans (completing_failed hfailed
    ((crashed_add digest r opId ht₀).2.resolve_left hfailed))

/-- An add of two atoms whose batch fails. -/
def sampleAtoms : AddRun where
  content := "text"
  metadata := { sessionId := some "a", privacyLevel := some "shared" }
  atoms := [{ content := "first" },{ content := "second" }]
  docId := "uuid"
  inserted := some 1
  revision := "now"
  batchFails := fun _ => true

def sampleRepair : RepairRun where
  digest := fun s => s

/-- The add dies after this many effects. -/
def sampleCrash (k : ℕ) : AddState :=
  (sampleAtoms.start sampleRepair.digest 1).applyAll
  ((sampleAtoms.effects sampleRepair.digest).take k)

/-- The state after a repair of it that ran to its end. -/
def sampleRepaired (k : ℕ) : AddState :=
  (sampleCrash k).applyAll (sampleRepair.repairIncomplete (sampleCrash k))

lemma sampleRepair_happens (k : ℕ) : Happens (sampleRepair.repairIncomplete (sampleCrash k))
    (sampleRepair.repairIncomplete (sampleCrash k)) := by
  have h := happens_take (sampleRepair.repairIncomplete (sampleCrash k))
    (sampleRepair.repairIncomplete (sampleCrash k)).length
  rwa [List.take_length] at h

/-- The process dies after the first single insert. The repair finds an atom, inserts nothing
and closes the operation. -/
theorem closed_add_misses_atom :
    ∃ (r : AddRun) (R : RepairRun) (s : AddState) (t : List Effect),
      AddHistory R.digest r s ∧ s.op.status ≠ .completed ∧ Happens (R.repairIncomplete s) t ∧
      (s.applyAll t).op.status = .completed ∧ ¬Complete r.atoms (s.applyAll t).atoms := by
  refine ⟨sampleAtoms,sampleRepair,sampleCrash 5,_,.crashed 1 (happens_take _ 5),
    by decide +kernel,sampleRepair_happens 5,by decide +kernel,fun h => ?_⟩
  have hlength := h.length_eq
  exact absurd hlength (by decide +kernel)

/-- The process dies before any atom is stored. -/
theorem closed_add_complete_sample : Complete sampleAtoms.atoms (sampleRepaired 4).atoms := by
  have hclosed := closed_add_complete sampleRepair.digest sampleAtoms (R := sampleRepair)
    (.crashed 1 (happens_take _ 4)) (s := sampleCrash 4) (by decide +kernel)
    (sampleRepair_happens 4) (by decide +kernel)
  refine hclosed.1.mpr ?_
  exact .inr ⟨by decide +kernel,rfl,by decide +kernel⟩

end Memora.WriteOps
