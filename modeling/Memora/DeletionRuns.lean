import Memora.DeletionModels
import Memora.RunLaws

/-! What the end of a deletion promises about the three stores, and the condition on its events
that it rests on. Beside each run stands the run of its updates alone: a deletion that fails has
to leave the stores as they are there. The lock keeps updates away from what the vector step has
removed; nothing keeps them away from the BM25 index. -/
namespace Memora.Deletions
open RunLaws

variable (s alone : Stores)

def Stores.Agree : Prop :=
  ∃ text, s.canonicalText = some text ∧ s.vector = some text ∧ s.bm25 = [text]

def Stores.Empty : Prop := s.document = none ∧ s.vector = none ∧ s.bm25 = []

/-- The documents and vectors are those the updates alone have left, and so is the BM25 row,
unless it is rewritten with the text that is canonical now. -/
def Stores.Unharmed : Prop :=
  s.document = alone.document ∧ s.vector = alone.vector ∧
    (s.bm25 = alone.bm25 ∨ ∃ text, s.canonicalText = some text ∧ s.bm25 = [text])

variable {s alone} in
/-- Where no update is halfway or has left an index behind, all three have the current text. -/
theorem Stores.Unharmed.agree (h : s.Unharmed alone) (halone : alone.Agree) : s.Agree := by
  obtain ⟨hdocument,hvector,hbm25⟩ := h
  obtain ⟨text,htext,hindexed,hrow⟩ := halone
  have hcanonical : s.canonicalText = some text := by
    rw [Stores.canonicalText,hdocument]; exact htext
  refine ⟨text,hcanonical,hvector.trans hindexed,?_⟩
  rcases hbm25 with hbm25 | ⟨other,hother,hbm25⟩
  · exact hbm25.trans hrow
  · obtain rfl : other = text := Option.some.inj (hother.symm.trans hcanonical)
    exact hbm25

def DeleteEnd.Promise : DeleteEnd → Prop
  | .deleted => s.Empty
  | .refused => s.Unharmed alone
  | .cancelled => s.Unharmed alone

variable {ι : Type}

structure World.Meets (w : World ι) : Prop where
  ended : ∀ r s, w.deletion = .ended r s → r.Promise s alone
  canonical : ∀ b ∈ w.rollbacks, b.2 = some b.1

def Removed.nothing : Removed := ⟨false,false⟩

def usable (backup : Option String) : Prop := ∃ text, backup = some text ∧ text ≠ ""

def Outcome.landed : Outcome Bool → Bool
  | .done => true
  | .raised landed => landed
  | .cancelled landed => landed

inductive Write
  | document (u : ContentUpdate)
  | vector (text : Option String)
  | bm25 (text : String)

def Write.apply (s : Stores) : Write → Stores
  | .document u => s.commit u
  | .vector text => { s with vector := text }
  | .bm25 text => s.updateBm25 text

/-- The write of a step of an update, where it happens. -/
def World.written (w : World ι) (i : ι) (e : UpdateEvent) : Option Write :=
  match w.updates i, e with
  | .committing u, .commit o =>
    if w.lock.isNone && o.landed && w.stores.admits u then some (.document u) else none
  | .deletingVector _, .deleteVector o => if o.landed then some (.vector none) else none
  | .insertingVector content, .insertVector o =>
    if o.landed then some (.vector (some content)) else none
  | .refreshingBm25 content, .refreshBm25 o => if o.landed then some (.bm25 content) else none
  | _, _ => none

/-- What has happened beside the deletion: the text of the last commit since the backup was
read, whether an update has written the BM25 row since it was deleted, and what a failed vector
step has taken out that no update has written again. -/
structure History where
  latest : Option String := none
  refreshed : Bool := false
  removed : Removed := .nothing

def History.afterWrite (h : History) : Write → History
  | .document u => { h with latest := some u.content }
  | .vector _ => { h with removed := { h.removed with vector := false } }
  | .bm25 _ => { h with refreshed := true }

/-- What of it is there to be removed. -/
def Stores.takes (removed : Removed) : Removed :=
  ⟨removed.document && s.document.isSome,removed.vector && s.vector.isSome⟩

def History.afterDelete (h : History) (w : World ι) (e : DeleteEvent) : History :=
  match w.deletion, e with
  | .readingBackup, .readBackup _ => { h with latest := none }
  | .deletingBm25 _, .deleteBm25 _ => { h with refreshed := false }
  | .deletingVector _, .deleteVector (.raised removed) =>
    if w.lock = none then { h with removed := w.stores.takes removed } else h
  | _, _ => h

def Deletion.running : Deletion → Bool
  | .ended _ _ => false
  | _ => true

/-- A run, the run of its updates alone up to the end of the deletion, and the history. -/
structure Run (ι : Type) where
  world : World ι
  alone : World ι
  history : History := {}

def Run.start (d : Document) : Run ι := { world := .start d, alone := .start d }

def Run.step [DecidableEq ι] (r : Run ι) : Event ι → Run ι
  | .delete e => ⟨r.world.deleteStep e,r.alone,r.history.afterDelete r.world e⟩
  | .update i e =>
    ⟨r.world.updateStep i e,if r.world.deletion.running then r.alone.updateStep i e else r.alone,
      (r.world.written i e).elim r.history r.history.afterWrite⟩

def Run.Meets (r : Run ι) : Prop := r.world.Meets r.alone.stores

/-- The condition on a step of the deletion, from the history of the run before it. -/
def Run.OrderlyStep (r : Run ι) (e : DeleteEvent) : Prop :=
  match r.world.deletion, e with
  | .deletingBm25 _, .deleteBm25 (.raised landed) => landed = false
  | .deletingBm25 _, .deleteBm25 (.cancelled landed) => landed = false
  | .deletingVector backup, .deleteVector (.raised removed) => r.world.lock = none →
    usable backup ∨ r.world.stores.takes removed = .nothing ∧ r.history.refreshed = true
  | .deletingVector _, .deleteVector (.cancelled removed) => r.world.lock = none →
    r.world.stores.takes removed = .nothing ∧ r.history.refreshed = true
  | .deletingVector _, .abandon => r.history.refreshed = true
  | .deletingDocuments, .deleteDocuments .done => r.history.refreshed = false
  | .deletingDocuments, .deleteDocuments (.raised _) => r.history.refreshed = false
  | .deletingDocuments, .deleteDocuments (.cancelled _) => False
  | .rollingBack text, .rollback o => r.history.removed = .nothing ∧
    if o.landed then r.history.latest.getD text = text else r.history.refreshed = true
  | _, _ => True

def Run.Orderly (r : Run ι) : Event ι → Prop
  | .delete e => r.OrderlyStep e
  | .update _ _ => True

def World.Held (w : World ι) : Prop := ∀ i, (w.updates i).holdsLock = true → w.lock = some i

variable {w : World ι} {v : World ι} {i : ι}

lemma deleteStep_frame (w : World ι) (e : DeleteEvent) :
    (w.deleteStep e).updates = w.updates ∧ (w.deleteStep e).lock = w.lock := by
  have hrollback : ∀ (v : World ι) backup,
      (v.beginRollback backup).updates = v.updates ∧ (v.beginRollback backup).lock = v.lock := by
    intro v backup
    unfold World.beginRollback
    split
    · split <;> exact ⟨rfl,rfl⟩
    · exact ⟨rfl,rfl⟩
  unfold World.deleteStep
  split
  case h_8 o _ =>
    split
    · cases o with
      | done | cancelled => exact ⟨rfl,rfl⟩
      | raised removed => exact hrollback _ _
    · exact ⟨rfl,rfl⟩
  all_goals exact ⟨rfl,rfl⟩

lemma World.Held.of_holder (hw : w.Held) (hlock : w.lock = none ∨ w.lock = some i)
    (hothers : ∀ j ≠ i, v.updates j = w.updates j)
    (hi : (v.updates i).holdsLock = true → v.lock = some i) : v.Held := by
  intro j hj
  by_cases hji : j = i
  · subst hji
    exact hi hj
  · rw [hothers j hji] at hj
    rcases hlock with hlock | hlock
    · cases hlock.symm.trans (hw j hj)
    · exact absurd (Option.some.inj (hlock.symm.trans (hw j hj))).symm hji

variable [DecidableEq ι]

lemma World.Held.setUpdate (hw : w.Held) (i : ι) {u : Update} (hu : u.holdsLock = false) :
    (w.setUpdate i u).Held := by
  intro j hj
  by_cases hji : j = i
  · subst hji
    simp [World.setUpdate,hu] at hj
  · have hsame : (w.setUpdate i u).updates j = w.updates j := Function.update_of_ne hji _ _
    exact hw j (hsame ▸ hj)

lemma World.Held.release (hw : w.Held) (hlock : w.lock = some i) {u : Update}
    (hu : u.holdsLock = false) : (w.release i u).Held :=
  hw.of_holder (.inr hlock) (fun _ hj => Function.update_of_ne hj _ _) fun hi => by
    simp [World.release,World.setUpdate,hu] at hi

lemma World.Held.update (hw : w.Held) (i : ι) (e : UpdateEvent) : (w.updateStep i e).Held := by
  have hchange : ∀ landed f, (w.change landed f).Held := fun _ _ => hw
  cases hi : w.updates i with
  | idle =>
    unfold World.updateStep
    rw [hi]
    cases e with
    | call u =>
      dsimp only
      split
      · exact hw
      · exact hw.setUpdate i rfl
    | _ => exact hw
  | committing u =>
    unfold World.updateStep
    rw [hi]
    cases e with
    | commit o =>
      dsimp only
      split
      · rename_i hlock
        cases o with
        | done =>
          unfold World.commitUpdate
          dsimp only
          split
          · exact hw.of_holder (.inl hlock) (fun _ hj => Function.update_of_ne hj _ _) fun _ => rfl
          · exact hw.setUpdate i rfl
        | raised landed | cancelled landed => exact (hchange _ _).setUpdate i rfl
      · exact hw
    | _ => exact hw
  | deletingVector content =>
    have hlock : w.lock = some i := hw i (by rw [hi]; rfl)
    unfold World.updateStep
    rw [hi]
    cases e with
    | deleteVector o =>
      cases o with
      | done => exact hw.of_holder (.inr hlock) (fun _ hj => Function.update_of_ne hj _ _) fun _ => hlock
      | raised landed | cancelled landed => exact (hchange _ _).release hlock rfl
    | _ => exact hw
  | insertingVector content =>
    have hlock : w.lock = some i := hw i (by rw [hi]; rfl)
    unfold World.updateStep
    rw [hi]
    cases e with
    | insertVector o =>
      cases o with
      | done | raised landed | cancelled landed => exact (hchange _ _).release hlock rfl
    | _ => exact hw
  | refreshingBm25 content =>
    unfold World.updateStep
    rw [hi]
    cases e with
    | refreshBm25 o =>
      cases o with
      | done | raised landed | cancelled landed => exact (hchange _ _).setUpdate i rfl
    | _ => exact hw

lemma updateStep_free (hlock : w.lock = none) (hdocument : w.stores.document = none) (i : ι)
    (e : UpdateEvent) : (w.updateStep i e).lock = none := by
  have hadmits : ∀ u, w.stores.admits u = false := fun u => by rw [Stores.admits,hdocument]; rfl
  unfold World.updateStep
  split
  case h_2 u o hi =>
    cases o <;> simp [World.commitUpdate,hadmits,World.setUpdate,World.change,hlock]
  case h_1 => split <;> exact hlock
  all_goals first | exact hlock | rfl

lemma updateStep_frame (w : World ι) (i : ι) (e : UpdateEvent) :
    (w.updateStep i e).deletion = w.deletion ∧ (w.updateStep i e).rollbacks = w.rollbacks := by
  have hcommit : ∀ u o, (w.commitUpdate i u o).deletion = w.deletion ∧
      (w.commitUpdate i u o).rollbacks = w.rollbacks := by
    intro u o
    cases o with
    | done =>
      unfold World.commitUpdate
      dsimp only
      split <;> exact ⟨rfl,rfl⟩
    | raised | cancelled => exact ⟨rfl,rfl⟩
  unfold World.updateStep
  split
  · split <;> exact ⟨rfl,rfl⟩
  · split
    · exact hcommit _ _
    · exact ⟨rfl,rfl⟩
  all_goals exact ⟨rfl,rfl⟩

lemma commitUpdate_stores (w : World ι) (i : ι) (u : ContentUpdate) (o : Outcome Bool) :
    (w.commitUpdate i u o).stores =
      if o.landed && w.stores.admits u then w.stores.commit u else w.stores := by
  cases o with
  | done =>
    unfold World.commitUpdate Outcome.landed
    dsimp only
    split <;> simp_all [World.setUpdate,World.change]
  | raised landed | cancelled landed => cases landed <;> rfl

theorem updateStep_stores (w : World ι) (i : ι) (e : UpdateEvent) :
    (w.updateStep i e).stores = (w.written i e).elim w.stores (Write.apply w.stores) := by
  have hlanded : ∀ (o : Outcome Bool) (x : Write),
      (if o.landed then some x else none : Option Write).elim w.stores (Write.apply w.stores) =
        if o.landed then x.apply w.stores else w.stores := by
    intro o x
    cases o.landed <;> rfl
  unfold World.updateStep World.written
  cases w.updates i with
  | idle =>
    cases e with
    | call u => dsimp only; split <;> rfl
    | _ => rfl
  | committing u =>
    cases e with
    | commit o =>
      dsimp only
      split
      · rename_i hlock
        rw [commitUpdate_stores,hlock]
        cases o.landed <;> cases w.stores.admits u <;> rfl
      · rename_i hlock
        rw [Option.isNone_eq_false_iff.mpr (Option.isSome_iff_ne_none.mpr hlock)]
        rfl
    | _ => rfl
  | deletingVector content =>
    cases e with
    | deleteVector o => dsimp only; rw [hlanded]; cases o <;> rfl
    | _ => rfl
  | insertingVector content =>
    cases e with
    | insertVector o => dsimp only; rw [hlanded]; cases o <;> rfl
    | _ => rfl
  | refreshingBm25 content =>
    cases e with
    | refreshBm25 o => dsimp only; rw [hlanded]; cases o <;> rfl
    | _ => rfl

lemma admits_congr {s s' : Stores} (h : s.document = s'.document) (u : ContentUpdate) :
    s.admits u = s'.admits u := by
  rw [Stores.admits,Stores.admits,h]

/-- An update goes the same way in two worlds with the same updates, lock and document. -/
theorem updateStep_congr (hupdates : w.updates = v.updates) (hlock : w.lock = v.lock)
    (hdocument : w.stores.document = v.stores.document) (i : ι) (e : UpdateEvent) :
    (w.updateStep i e).updates = (v.updateStep i e).updates ∧
      (w.updateStep i e).lock = (v.updateStep i e).lock ∧ w.written i e = v.written i e := by
  have hadmits := admits_congr hdocument
  have hcommit : ∀ u o, (w.commitUpdate i u o).updates = (v.commitUpdate i u o).updates ∧
      (w.commitUpdate i u o).lock = (v.commitUpdate i u o).lock := by
    intro u o
    cases o with
    | done =>
      unfold World.commitUpdate
      rw [hadmits]
      dsimp only
      split <;> simp [World.setUpdate,World.change,hupdates,hlock]
    | raised | cancelled => simp [World.commitUpdate,World.setUpdate,World.change,hupdates,hlock]
  unfold World.updateStep World.written
  rw [hupdates,hlock]
  cases v.updates i with
  | idle =>
    cases e with
    | call u => dsimp only; split <;> simp [World.setUpdate,hupdates,hlock]
    | _ => exact ⟨hupdates,hlock,rfl⟩
  | committing u =>
    cases e with
    | commit o =>
      simp only [hadmits]
      split
      · exact ⟨(hcommit u o).1,(hcommit u o).2,trivial⟩
      · exact ⟨hupdates,hlock,trivial⟩
    | _ => exact ⟨hupdates,hlock,rfl⟩
  | deletingVector content | insertingVector content | refreshingBm25 content =>
    cases e with
    | deleteVector o | insertVector o | refreshBm25 o =>
      first
      | exact ⟨hupdates,hlock,rfl⟩
      | cases o <;> simp [World.release,World.setUpdate,World.change,hupdates,hlock]
    | _ => exact ⟨hupdates,hlock,rfl⟩

omit [DecidableEq ι] in
lemma written_document {u : ContentUpdate} {e : UpdateEvent}
    (h : w.written i e = some (.document u)) :
    w.stores.document ≠ none := by
  intro hnone
  have hadmits : ∀ u, w.stores.admits u = false := by
    intro u
    rw [Stores.admits,hnone]
    rfl
  unfold World.written at h
  split at h <;> simp [hadmits] at h

omit [DecidableEq ι] in
lemma written_vector {text : Option String} {e : UpdateEvent}
    (h : w.written i e = some (.vector text)) : (w.updates i).holdsLock = true := by
  unfold World.written at h
  split at h <;> simp_all [Update.holdsLock]

/-- The memory is there, and has a BM25 row. -/
def Stores.Kept (s : Stores) : Prop := s.document ≠ none ∧ s.bm25 ≠ []

lemma Stores.Kept.apply {s : Stores} (h : s.Kept) (x : Write) : (x.apply s).Kept := by
  cases x with
  | document u => exact ⟨by simpa [Write.apply,Stores.commit] using h.1,h.2⟩
  | vector text => exact h
  | bm25 text => exact ⟨h.1,List.cons_ne_nil _ _⟩

structure Run.Linked (r : Run ι) : Prop where
  updates : r.world.updates = r.alone.updates
  lock : r.world.lock = r.alone.lock
  document : r.world.stores.document = r.alone.stores.document
  vector : if r.history.removed.vector then
      r.world.stores.vector = none ∧ r.alone.stores.vector ≠ none
    else r.world.stores.vector = r.alone.stores.vector

def Run.Cleared (r : Run ι) : Prop :=
  r.world.stores.bm25 = if r.history.refreshed then r.alone.stores.bm25 else []

def Run.Backed (r : Run ι) (backup : Option String) : Prop :=
  ∀ text, backup = some text → r.world.stores.canonicalText = some (r.history.latest.getD text)

/-- What holds behind the BM25 step, as long as the deletion may still fail. -/
def Run.Settled (r : Run ι) (backup : Option String) : Prop :=
  if r.history.removed.document then r.world.stores.document = none
  else r.Linked ∧ r.Cleared ∧ r.Backed backup

def Run.Phase (r : Run ι) : Prop :=
  match r.world.deletion with
  | .idle => r.Linked ∧ r.history.removed = .nothing ∧ r.world.stores.bm25 = r.alone.stores.bm25
  | .readingBackup =>
    r.Linked ∧ r.history.removed = .nothing ∧ r.world.stores.bm25 = r.alone.stores.bm25
  | .deletingBm25 backup => (r.Linked ∧ r.history.removed = .nothing ∧
    r.world.stores.bm25 = r.alone.stores.bm25) ∧ r.Backed backup
  | .deletingVector backup => r.history.removed = .nothing ∧ r.Settled backup
  | .deletingDocuments => (r.world.stores.document = none ∧ r.world.stores.vector = none ∧
    r.world.lock = none) ∧ (r.world.stores.bm25 = [] ↔ r.history.refreshed = false)
  | .rollingBack text => r.Settled (some text)
  | .ended _ _ => True

structure Run.Inv (r : Run ι) : Prop where
  held : r.world.Held
  kept : r.alone.stores.Kept
  phase : r.Phase

variable {r : Run ι} {backup : Option String} {e : UpdateEvent}

lemma Run.Linked.stores (h : r.Linked) (hrunning : r.world.deletion.running = true) (i : ι)
    (e : UpdateEvent) : (r.step (.update i e)).alone.stores =
      (r.world.written i e).elim r.alone.stores (Write.apply r.alone.stores) := by
  have halone : (r.step (.update i e)).alone = r.alone.updateStep i e := if_pos hrunning
  rw [halone,updateStep_stores,(updateStep_congr h.updates h.lock h.document i e).2.2]

lemma Run.Linked.update (h : r.Linked) (hrunning : r.world.deletion.running = true) (i : ι)
    (e : UpdateEvent) : (r.step (.update i e)).Linked := by
  obtain ⟨hupdates,hlock,-⟩ := updateStep_congr h.updates h.lock h.document i e
  have halone : (r.step (.update i e)).alone = r.alone.updateStep i e := if_pos hrunning
  refine ⟨by rw [halone]; exact hupdates,by rw [halone]; exact hlock,?_,?_⟩
  · rw [h.stores hrunning]
    change (r.world.updateStep i e).stores.document = _
    rw [updateStep_stores]
    cases r.world.written i e with
    | none => exact h.document
    | some x =>
      cases x with
      | document u => exact congrArg (Option.map _) h.document
      | vector text | bm25 text => exact h.document
  · rw [h.stores hrunning]
    change if ((r.world.written i e).elim r.history r.history.afterWrite).removed.vector then
      (r.world.updateStep i e).stores.vector = none ∧ _ else (r.world.updateStep i e).stores.vector = _
    rw [updateStep_stores]
    cases r.world.written i e with
    | none => exact h.vector
    | some x =>
      cases x with
      | document u | bm25 text => exact h.vector
      | vector text => rfl

lemma Run.Linked.bm25_update (h : r.Linked) (hrunning : r.world.deletion.running = true)
    (hbm25 : r.world.stores.bm25 = r.alone.stores.bm25) (i : ι) (e : UpdateEvent) :
    (r.step (.update i e)).world.stores.bm25 = (r.step (.update i e)).alone.stores.bm25 := by
  rw [h.stores hrunning]
  change (r.world.updateStep i e).stores.bm25 = _
  rw [updateStep_stores]
  cases r.world.written i e with
  | none => exact hbm25
  | some x => cases x <;> first | exact hbm25 | rfl

lemma Run.Linked.cleared_update (h : r.Linked) (hrunning : r.world.deletion.running = true)
    (hcleared : r.Cleared) (i : ι) (e : UpdateEvent) : (r.step (.update i e)).Cleared := by
  unfold Run.Cleared
  rw [h.stores hrunning]
  change (r.world.updateStep i e).stores.bm25 =
    if ((r.world.written i e).elim r.history r.history.afterWrite).refreshed then _ else _
  rw [updateStep_stores]
  cases r.world.written i e with
  | none => exact hcleared
  | some x => cases x <;> first | exact hcleared | rfl

lemma Run.Backed.update (h : r.Backed backup) (i : ι) (e : UpdateEvent) :
    (r.step (.update i e)).Backed backup := by
  intro text htext
  have hcanonical := h text htext
  change (r.world.updateStep i e).stores.canonicalText =
    some (((r.world.written i e).elim r.history r.history.afterWrite).latest.getD text)
  rw [updateStep_stores]
  cases r.world.written i e with
  | none => exact hcanonical
  | some x =>
    cases x with
    | document u =>
      obtain ⟨d,hd,-⟩ := Option.map_eq_some_iff.mp hcanonical
      simp [Write.apply,Stores.commit,Stores.canonicalText,hd,History.afterWrite]
    | vector text | bm25 text => exact hcanonical

lemma history_update (r : Run ι) (i : ι) (e : UpdateEvent) :
    (r.step (.update i e)).history.removed.document = r.history.removed.document ∧
      (r.history.removed = .nothing → (r.step (.update i e)).history.removed = .nothing) := by
  change (((r.world.written i e).elim r.history r.history.afterWrite).removed.document = _ ∧
    (_ → ((r.world.written i e).elim r.history r.history.afterWrite).removed = _))
  cases r.world.written i e with
  | none => exact ⟨rfl,id⟩
  | some x =>
    cases x with
    | document u | bm25 text => exact ⟨rfl,id⟩
    | vector text => exact ⟨rfl,fun h => by simp [Option.elim,History.afterWrite,h,Removed.nothing]⟩

lemma document_update (h : r.world.stores.document = none) (i : ι) (e : UpdateEvent) :
    (r.step (.update i e)).world.stores.document = none := by
  change (r.world.updateStep i e).stores.document = none
  rw [updateStep_stores]
  cases hx : r.world.written i e with
  | none => exact h
  | some x =>
    cases x with
    | document u => exact absurd h (written_document hx)
    | vector text | bm25 text => exact h

lemma Run.Settled.update (h : r.Settled backup) (hrunning : r.world.deletion.running = true) (i : ι)
    (e : UpdateEvent) : (r.step (.update i e)).Settled backup := by
  unfold Run.Settled at h ⊢
  rw [(history_update r i e).1]
  by_cases hdocument : r.history.removed.document = true
  · rw [if_pos hdocument] at h ⊢
    exact document_update h i e
  · rw [if_neg hdocument] at h ⊢
    exact ⟨h.1.update hrunning i e,h.1.cleared_update hrunning h.2.1 i e,h.2.2.update i e⟩

lemma Run.Inv.update (h : r.Inv) (i : ι) (e : UpdateEvent) : (r.step (.update i e)).Inv := by
  refine ⟨h.held.update i e,?_,?_⟩
  · change (if r.world.deletion.running then r.alone.updateStep i e else r.alone).stores.Kept
    split
    · rw [updateStep_stores]
      cases r.alone.written i e with
      | none => exact h.kept
      | some x => exact h.kept.apply x
    · exact h.kept
  · have hphase := h.phase
    have hdeletion : (r.step (.update i e)).world.deletion = r.world.deletion :=
      (updateStep_frame r.world i e).1
    unfold Run.Phase at hphase ⊢
    rw [hdeletion]
    have hremoved := (history_update r i e).2
    cases hd : r.world.deletion with
    | idle | readingBackup =>
      have hrunning : r.world.deletion.running = true := by rw [hd]; rfl
      rw [hd] at hphase
      obtain ⟨hlinked,hnothing,hbm25⟩ := hphase
      exact ⟨hlinked.update hrunning i e,hremoved hnothing,hlinked.bm25_update hrunning hbm25 i e⟩
    | deletingBm25 backup =>
      have hrunning : r.world.deletion.running = true := by rw [hd]; rfl
      rw [hd] at hphase
      obtain ⟨⟨hlinked,hnothing,hbm25⟩,hbacked⟩ := hphase
      exact ⟨⟨hlinked.update hrunning i e,hremoved hnothing,hlinked.bm25_update hrunning hbm25 i e⟩,
        hbacked.update i e⟩
    | deletingVector backup =>
      have hrunning : r.world.deletion.running = true := by rw [hd]; rfl
      rw [hd] at hphase
      exact ⟨hremoved hphase.1,hphase.2.update hrunning i e⟩
    | deletingDocuments =>
      rw [hd] at hphase
      obtain ⟨⟨hdocument,hvector,hlock⟩,hbm25⟩ := hphase
      change ((r.world.updateStep i e).stores.document = none ∧
        (r.world.updateStep i e).stores.vector = none ∧ (r.world.updateStep i e).lock = none) ∧
        ((r.world.updateStep i e).stores.bm25 = [] ↔
          ((r.world.written i e).elim r.history r.history.afterWrite).refreshed = false)
      rw [updateStep_free hlock hdocument,updateStep_stores]
      cases hx : r.world.written i e with
      | none => exact ⟨⟨hdocument,hvector,rfl⟩,hbm25⟩
      | some x =>
        cases x with
        | document u => exact absurd hdocument (written_document hx)
        | vector text => cases hlock.symm.trans (h.held i (written_vector hx))
        | bm25 text =>
          refine ⟨⟨hdocument,hvector,rfl⟩,iff_of_false (List.cons_ne_nil _ _) ?_⟩
          simp [History.afterWrite]
    | rollingBack text =>
      have hrunning : r.world.deletion.running = true := by rw [hd]; rfl
      rw [hd] at hphase
      exact hphase.update hrunning i e
    | ended => trivial

section Meets

variable {alone : Stores}

omit [DecidableEq ι]

lemma meets_running (h : w.deletion.running = true) : w.Meets alone ↔
    ∀ b ∈ w.rollbacks, b.2 = some b.1 :=
  ⟨fun hw => hw.canonical,fun hw => ⟨fun r s hd => (by rw [hd] at h; cases h),hw⟩⟩

lemma meets_finish (w : World ι) (r : DeleteEnd) : (w.finish r).Meets alone ↔
    (∀ b ∈ w.rollbacks, b.2 = some b.1) ∧ r.Promise w.stores alone := by
  constructor
  · intro h
    exact ⟨h.canonical,h.ended r w.stores rfl⟩
  · intro h
    refine ⟨?_,h.1⟩
    intro r' s' hd
    cases hd
    exact h.2

lemma meets_beginRollback (hd : w.deletion.running = true) (backup : Option String) :
    (w.beginRollback backup).Meets alone ↔
      w.Meets alone ∧ (usable backup ∨ w.stores.Unharmed alone) := by
  have hfinish : ¬usable backup → ((w.finish .refused).Meets alone ↔
      w.Meets alone ∧ (usable backup ∨ w.stores.Unharmed alone)) := by
    intro hnone
    rw [meets_finish,meets_running hd,or_iff_right hnone]
    exact Iff.rfl
  unfold World.beginRollback
  split
  · rename_i text
    split
    · rename_i hempty
      apply hfinish
      rintro ⟨other,hother,hne⟩
      cases hother
      exact hne hempty
    · rename_i hne
      have husable : usable (some text) := ⟨text,rfl,hne⟩
      rw [meets_running rfl,meets_running hd,and_iff_left (.inl husable)]
  · apply hfinish
    rintro ⟨text,hnone,-⟩
    cases hnone

theorem meets_writeBack (hd : w.deletion.running = true) (landed : Bool) (text : String)
    {r : DeleteEnd} (hr : ∀ s, r.Promise s alone ↔ s.Unharmed alone) :
    ((w.writeBack landed text).finish r).Meets alone ↔ w.Meets alone ∧
      if landed then w.stores.canonicalText = some text ∧
        w.stores.document = alone.document ∧ w.stores.vector = alone.vector
      else w.stores.Unharmed alone := by
  rw [meets_finish,hr,meets_running hd]
  cases landed with
  | false => exact Iff.rfl
  | true =>
    change (∀ b ∈ w.rollbacks++[(text,w.stores.canonicalText)],b.2 = some b.1) ∧
      (w.stores.updateBm25 text).Unharmed alone ↔ _
    rw [List.forall_mem_append,List.forall_mem_singleton,if_pos rfl,and_assoc]
    refine and_congr_right fun _ => and_congr_right fun hcanonical => ?_
    constructor
    · intro h
      exact ⟨h.1,h.2.1⟩
    · intro h
      exact ⟨h.1,h.2,.inr ⟨text,hcanonical,rfl⟩⟩

lemma Run.Linked.unharmed (h : r.Linked) (hnothing : r.history.removed = .nothing)
    (hbm25 : r.world.stores.bm25 = r.alone.stores.bm25) :
    r.world.stores.Unharmed r.alone.stores := by
  have hvector := h.vector
  rw [hnothing] at hvector
  exact ⟨h.document,hvector,.inl hbm25⟩

lemma not_unharmed_deleteBm25 {s : Stores} (hkept : alone.Kept) : ¬s.deleteBm25.Unharmed alone := by
  rintro ⟨-,-,hsame | ⟨text,-,hrow⟩⟩
  · exact hkept.2 hsame.symm
  · cases hrow

lemma Run.Settled.linked (h : r.Settled backup) (hnothing : r.history.removed = .nothing) :
    r.Linked ∧ r.Cleared ∧ r.Backed backup := by
  unfold Run.Settled at h
  rwa [hnothing] at h

/-- Documents and vectors are as the updates alone leave them when nothing is missing there. -/
theorem Run.Settled.left_iff (h : r.Settled backup) (hkept : r.alone.stores.Kept) :
    (r.world.stores.document = r.alone.stores.document ∧
      r.world.stores.vector = r.alone.stores.vector) ↔ r.history.removed = .nothing := by
  refine ⟨fun hs => ?_,fun hnothing => ?_⟩
  · unfold Run.Settled at h
    by_cases hdocument : r.history.removed.document = true
    · rw [if_pos hdocument] at h
      exact absurd (hs.1.symm.trans h) hkept.1
    rw [if_neg hdocument] at h
    have hvector := h.1.vector
    by_cases htaken : r.history.removed.vector = true
    · rw [if_pos htaken] at hvector
      exact absurd (hs.2.symm.trans hvector.1) hvector.2
    cases hr : r.history.removed
    simp_all [Removed.nothing]
  · have hlinked := (h.linked hnothing).1
    have hvector := hlinked.vector
    rw [hnothing] at hvector
    exact ⟨hlinked.document,hvector⟩

/-- Behind the BM25 step the stores are unharmed when nothing is missing from documents and
vectors and an update has written the BM25 row. -/
theorem Run.Settled.unharmed_iff (h : r.Settled backup) (hkept : r.alone.stores.Kept) :
    r.world.stores.Unharmed r.alone.stores ↔
      r.history.removed = .nothing ∧ r.history.refreshed = true := by
  unfold Stores.Unharmed
  rw [← and_assoc,h.left_iff hkept]
  refine and_congr_right fun hnothing => ?_
  have hcleared : r.world.stores.bm25 = if r.history.refreshed then r.alone.stores.bm25 else [] :=
    (h.linked hnothing).2.1
  rw [hcleared]
  cases r.history.refreshed with
  | true => exact iff_of_true (.inl rfl) rfl
  | false =>
    refine iff_of_false ?_ fun hs => (by cases hs)
    rintro (hsame | ⟨text,-,hrow⟩)
    · exact hkept.2 hsame.symm
    · cases hrow

/-- The run behind a vector step that failed. -/
def Run.afterRemoval (r : Run ι) (removed : Removed) : Run ι :=
  { r with
    world := { r.world with stores := r.world.stores.remove removed }
    history := { r.history with removed := r.world.stores.takes removed } }

lemma Run.Settled.afterRemoval (h : r.Settled backup) (hnothing : r.history.removed = .nothing)
    (removed : Removed) : (r.afterRemoval removed).Settled backup := by
  obtain ⟨hlinked,hcleared,hbacked⟩ := h.linked hnothing
  have hvector := hlinked.vector
  rw [hnothing] at hvector
  obtain ⟨document,vector⟩ := removed
  change if (document && r.world.stores.document.isSome) = true then _ else _
  split
  · rename_i htaken
    obtain ⟨rfl,-⟩ : document = true ∧ _ := by simpa using htaken
    rfl
  · rename_i hleft
    have hsame : (r.afterRemoval ⟨document,vector⟩).world.stores.document = r.world.stores.document := by
      cases document with
      | false => rfl
      | true => exact (Option.not_isSome_iff_eq_none.mp (by simpa using hleft)).symm
    refine ⟨⟨hlinked.updates,hlinked.lock,hsame.trans hlinked.document,?_⟩,hcleared,?_⟩
    · change if (vector && r.world.stores.vector.isSome) = true then
        (if vector then none else r.world.stores.vector) = none ∧ r.alone.stores.vector ≠ none
        else (if vector then none else r.world.stores.vector) = r.alone.stores.vector
      change r.world.stores.vector = r.alone.stores.vector at hvector
      rw [← hvector]
      cases vector <;> cases r.world.stores.vector <;> simp
    · intro text htext
      rw [Stores.canonicalText,hsame]
      exact hbacked text htext

lemma Run.Settled.move (h : r.Settled backup) (deletion : Deletion) :
    ({ r with world := { r.world with deletion } } : Run ι).Settled backup := by
  by_cases hdocument : r.history.removed.document = true
  · unfold Run.Settled at h ⊢
    rw [if_pos hdocument] at h
    rwa [if_pos hdocument]
  · unfold Run.Settled at h ⊢
    rw [if_neg hdocument] at h
    rw [if_neg hdocument]
    exact ⟨⟨h.1.updates,h.1.lock,h.1.document,h.1.vector⟩,h.2⟩

end Meets

/-- What a step of the deletion keeps, and when it keeps the promises. -/
def Run.Advances (r : Run ι) (e : DeleteEvent) : Prop :=
  (r.step (.delete e)).Phase ∧ ((r.step (.delete e)).Meets ↔ r.Meets ∧ r.OrderlyStep e)

lemma Run.advances_running (hd : r.world.deletion.running = true) {e : DeleteEvent}
    (hphase : (r.step (.delete e)).Phase)
    (hnext : (r.world.deleteStep e).deletion.running = true)
    (hrollbacks : (r.world.deleteStep e).rollbacks = r.world.rollbacks)
    (horderly : r.OrderlyStep e) : r.Advances e := by
  refine ⟨hphase,?_⟩
  unfold Run.Meets
  rw [and_iff_left horderly,meets_running hd]
  refine (meets_running hnext).trans ?_
  rw [hrollbacks]

lemma Run.advances_ignored {e : DeleteEvent} (hphase : r.Phase)
    (hworld : r.world.deleteStep e = r.world)
    (hhistory : r.history.afterDelete r.world e = r.history)
    (horderly : r.OrderlyStep e) : r.Advances e := by
  have hsame : r.step (.delete e) = r := by
    change Run.mk (r.world.deleteStep e) r.alone (r.history.afterDelete r.world e) = r
    rw [hworld,hhistory]
  refine ⟨hsame.symm ▸ hphase,?_⟩
  rw [hsame,and_iff_left horderly]

lemma Run.advances_deletingVector (h : r.Inv) (hd : r.world.deletion = .deletingVector backup)
    (e : DeleteEvent) : r.Advances e := by
  obtain ⟨⟨stores,lock,deletion,updates,rollbacks⟩,alone,history⟩ := r
  obtain rfl : deletion = _ := hd
  obtain ⟨hnothing,hsettled⟩ : history.removed = .nothing ∧ _ := h.phase
  cases e with
  | deleteVector o =>
    by_cases hlock : lock = none
    · subst hlock
      cases o with
      | done =>
        refine Run.advances_running rfl ?_ rfl rfl trivial
        have hcleared : stores.bm25 = if history.refreshed then alone.stores.bm25 else [] :=
          (hsettled.linked hnothing).2.1
        refine ⟨⟨rfl,rfl,rfl⟩,?_⟩
        change stores.bm25 = [] ↔ history.refreshed = false
        cases hrefreshed : history.refreshed with
        | false => exact iff_of_true (by rw [hcleared,hrefreshed]; rfl) rfl
        | true =>
          refine iff_of_false ?_ fun hs => (by cases hs)
          rw [hcleared,hrefreshed]
          exact h.kept.2
      | raised removed =>
        have hafter := hsettled.afterRemoval hnothing removed
        have hunharmed := hafter.unharmed_iff h.kept
        refine ⟨?_,?_⟩
        · change Run.Phase ⟨World.beginRollback _ backup,_,_⟩
          unfold World.beginRollback
          split
          · split
            · trivial
            · exact hafter.move _
          · trivial
        · refine (meets_beginRollback rfl backup).trans ?_
          change _ ∧ (_ ∨ _) ↔ _ ∧ (none = none → _)
          rw [forall_prop_of_true rfl]
          refine and_congr (by rw [Run.Meets,meets_running rfl,meets_running rfl])
            (or_congr_right (hunharmed.trans ?_))
          exact Iff.rfl
      | cancelled removed =>
        have hunharmed := (hsettled.afterRemoval hnothing removed).unharmed_iff h.kept
        refine ⟨trivial,(meets_finish _ _).trans ?_⟩
        change _ ∧ _ ↔ _ ∧ (none = none → _)
        rw [forall_prop_of_true rfl,Run.Meets,meets_running rfl]
        exact and_congr_right' (hunharmed.trans Iff.rfl)
    · refine Run.advances_ignored h.phase (if_neg hlock) ?_ ?_
      · cases o <;> first | rfl | exact if_neg hlock
      · cases o <;> first | trivial | exact fun hfree => absurd hfree hlock
  | abandon =>
    refine ⟨trivial,(meets_finish _ _).trans ?_⟩
    rw [Run.Meets,meets_running rfl]
    exact and_congr_right' ((hsettled.unharmed_iff h.kept).trans (and_iff_right hnothing))
  | _ => exact Run.advances_ignored h.phase rfl rfl trivial

lemma Run.advances_deletingDocuments (h : r.Inv) (hd : r.world.deletion = .deletingDocuments)
    (e : DeleteEvent) : r.Advances e := by
  obtain ⟨⟨stores,lock,deletion,updates,rollbacks⟩,alone,history⟩ := r
  obtain rfl : deletion = _ := hd
  obtain ⟨⟨hdocument,hvector,-⟩,hcleared⟩ := h.phase
  change stores.bm25 = [] ↔ history.refreshed = false at hcleared
  have hempty : ∀ landed : Bool, (if landed then stores.deleteDocument else stores).Empty ↔
      history.refreshed = false := by
    intro landed
    rw [← hcleared]
    cases landed with
    | false => exact ⟨fun hs => hs.2.2,fun hs => ⟨hdocument,hvector,hs⟩⟩
    | true => exact ⟨fun hs => hs.2.2,fun hs => ⟨rfl,hvector,hs⟩⟩
  cases e with
  | deleteDocuments o =>
    refine ⟨by cases o <;> trivial,?_⟩
    cases o with
    | done =>
      refine (meets_finish _ _).trans ?_
      rw [Run.Meets,meets_running rfl]
      exact and_congr_right' (hempty true)
    | raised landed =>
      refine (meets_finish _ _).trans ?_
      rw [Run.Meets,meets_running rfl]
      exact and_congr_right' (hempty landed)
    | cancelled landed =>
      refine (meets_finish _ _).trans (iff_of_false ?_ fun hs => hs.2)
      rintro ⟨-,hsame,-⟩
      refine h.kept.1 (hsame.symm.trans ?_)
      cases landed with
      | false => exact hdocument
      | true => rfl
  | _ => exact Run.advances_ignored h.phase rfl rfl trivial

lemma Run.advances_rollingBack (h : r.Inv) {text : String}
    (hd : r.world.deletion = .rollingBack text) (e : DeleteEvent) : r.Advances e := by
  obtain ⟨⟨stores,lock,deletion,updates,rollbacks⟩,alone,history⟩ := r
  obtain rfl : deletion = _ := hd
  have hsettled : Run.Settled _ (some text) := h.phase
  have hwritten : (stores.canonicalText = some text ∧ stores.document = alone.stores.document ∧
      stores.vector = alone.stores.vector) ↔
      history.removed = .nothing ∧ history.latest.getD text = text := by
    rw [and_comm,hsettled.left_iff h.kept]
    refine and_congr_right fun hnothing => ?_
    have hcanonical : stores.canonicalText = some (history.latest.getD text) :=
      (hsettled.linked hnothing).2.2 text rfl
    rw [hcanonical,Option.some_inj]
  have hunharmed := hsettled.unharmed_iff h.kept
  cases e with
  | rollback o =>
    refine ⟨by cases o <;> trivial,?_⟩
    have hcond : (if o.landed then stores.canonicalText = some text ∧
        stores.document = alone.stores.document ∧ stores.vector = alone.stores.vector
        else stores.Unharmed alone.stores) ↔ history.removed = .nothing ∧
          if o.landed then history.latest.getD text = text else history.refreshed = true := by
      cases o.landed with
      | false => exact hunharmed
      | true => exact hwritten
    cases o with
    | done => exact (meets_writeBack rfl true text fun _ => Iff.rfl).trans (and_congr_right' hcond)
    | raised landed =>
      exact (meets_writeBack rfl landed text fun _ => Iff.rfl).trans (and_congr_right' hcond)
    | cancelled landed =>
      exact (meets_writeBack rfl landed text fun _ => Iff.rfl).trans (and_congr_right' hcond)
  | _ => exact Run.advances_ignored h.phase rfl rfl trivial

lemma Run.advances_deletingBm25 (h : r.Inv) (hd : r.world.deletion = .deletingBm25 backup)
    (e : DeleteEvent) : r.Advances e := by
  obtain ⟨⟨stores,lock,deletion,updates,rollbacks⟩,alone,history⟩ := r
  obtain rfl : deletion = _ := hd
  obtain ⟨⟨hlinked,hnothing,hbm25⟩,hbacked⟩ := h.phase
  have hunharmed : ∀ landed : Bool, (if landed then stores.deleteBm25 else stores).Unharmed alone.stores ↔
      landed = false := by
    intro landed
    cases landed with
    | false => exact iff_of_true (hlinked.unharmed hnothing hbm25) rfl
    | true => exact iff_of_false (not_unharmed_deleteBm25 h.kept) fun hs => (by cases hs)
  cases e with
  | deleteBm25 o =>
    cases o with
    | done =>
      refine Run.advances_running rfl ⟨hnothing,?_⟩ rfl rfl trivial
      change if history.removed.document = true then _ else _
      rw [hnothing]
      exact ⟨⟨hlinked.updates,hlinked.lock,hlinked.document,hlinked.vector⟩,rfl,hbacked⟩
    | raised landed | cancelled landed =>
      refine ⟨trivial,(meets_finish _ _).trans ?_⟩
      rw [Run.Meets,meets_running rfl]
      exact and_congr_right' (hunharmed landed)
  | _ => exact Run.advances_ignored h.phase rfl rfl trivial

lemma Run.advances (h : r.Inv) (e : DeleteEvent) : r.Advances e := by
  cases hd : r.world.deletion with
  | idle =>
    obtain ⟨⟨stores,lock,deletion,updates,rollbacks⟩,alone,history⟩ := r
    obtain rfl : deletion = _ := hd
    obtain ⟨hlinked,hsame⟩ := h.phase
    cases e with
    | call =>
      exact Run.advances_running rfl
        ⟨⟨hlinked.updates,hlinked.lock,hlinked.document,hlinked.vector⟩,hsame⟩ rfl rfl trivial
    | _ => exact Run.advances_ignored h.phase rfl rfl trivial
  | readingBackup =>
    obtain ⟨⟨stores,lock,deletion,updates,rollbacks⟩,alone,history⟩ := r
    obtain rfl : deletion = _ := hd
    obtain ⟨hlinked,hnothing,hbm25⟩ := h.phase
    cases e with
    | readBackup o =>
      cases o with
      | done =>
        refine Run.advances_running rfl ⟨⟨?_,hnothing,hbm25⟩,fun _ h => h⟩ rfl rfl trivial
        exact ⟨hlinked.updates,hlinked.lock,hlinked.document,hlinked.vector⟩
      | raised landed =>
        refine Run.advances_running rfl ⟨⟨?_,hnothing,hbm25⟩,?_⟩ rfl rfl trivial
        · exact ⟨hlinked.updates,hlinked.lock,hlinked.document,hlinked.vector⟩
        intro text htext
        cases landed with
        | false => cases htext
        | true => exact htext
      | cancelled landed =>
        refine ⟨trivial,(meets_finish _ _).trans ?_⟩
        rw [Run.Meets,meets_running rfl]
        exact and_congr_right' (iff_of_true (hlinked.unharmed hnothing hbm25) trivial)
    | _ => exact Run.advances_ignored h.phase rfl rfl trivial
  | deletingBm25 backup => exact Run.advances_deletingBm25 h hd e
  | deletingVector backup => exact Run.advances_deletingVector h hd e
  | deletingDocuments => exact Run.advances_deletingDocuments h hd e
  | rollingBack text => exact Run.advances_rollingBack h hd e
  | ended result stores =>
    obtain ⟨⟨stores,lock,deletion,updates,rollbacks⟩,alone,history⟩ := r
    obtain rfl : deletion = _ := hd
    exact Run.advances_ignored h.phase rfl rfl trivial

lemma Run.Inv.step (h : r.Inv) (e : Event ι) : (r.step e).Inv := by
  cases e with
  | delete e =>
    obtain ⟨hupdates,hlock⟩ := deleteStep_frame r.world e
    refine ⟨?_,h.kept,(Run.advances h e).1⟩
    change ∀ i, ((r.world.deleteStep e).updates i).holdsLock = true →
      (r.world.deleteStep e).lock = some i
    rw [hupdates,hlock]
    exact h.held
  | update i e => exact h.update i e

omit [DecidableEq ι] in
lemma Run.Inv.start (d : Document) : (Run.start d : Run ι).Inv :=
  ⟨fun _ h => (by cases h),⟨by simp [Run.start,World.start],List.cons_ne_nil _
    _⟩,⟨rfl,rfl,rfl,rfl⟩,rfl,rfl⟩

/-- Updates neither break a promise nor mend one. -/
theorem Run.Inv.meets_step (h : r.Inv) (e : Event ι) : (r.step e).Meets ↔
    r.Meets ∧ r.Orderly e := by
  cases e with
  | delete e => exact (Run.advances h e).2
  | update i e =>
    obtain ⟨hdeletion,hrollbacks⟩ := updateStep_frame r.world i e
    refine Iff.trans ?_ (and_iff_left trivial).symm
    unfold Run.Meets
    by_cases hrunning : r.world.deletion.running = true
    · have hnext : (r.step (.update i e)).world.deletion.running = true := by
        change (r.world.updateStep i e).deletion.running = true
        rwa [hdeletion]
      rw [meets_running hrunning,meets_running hnext]
      change (∀ b ∈ (r.world.updateStep i e).rollbacks,_) ↔ _
      rw [hrollbacks]
    · have halone : (r.step (.update i e)).alone = r.alone := if_neg hrunning
      rw [halone]
      constructor
      · intro hw
        exact ⟨hdeletion ▸ hw.ended,hrollbacks ▸ hw.canonical⟩
      · intro hw
        exact ⟨hdeletion.symm ▸ hw.ended,hrollbacks.symm ▸ hw.canonical⟩

def runDeletion (d : Document) (events : List (Event ι)) : Run ι :=
  events.foldl Run.step (Run.start d)

/-- A deletion ends as promised, and its rollback writes the canonical text, exactly in the runs
whose steps are all orderly. -/
theorem meets_iff_orderly (d : Document) (events : List (Event ι)) :
    (runDeletion d events).Meets ↔ Along Run.step Run.Orderly (Run.start d) events := by
  induction events using List.reverseRecOn with
  | nil => exact iff_of_true ⟨fun r s h => (by cases h),fun b hb => (by cases hb)⟩ trivial
  | append_singleton events e ih =>
    have hinv : (runDeletion d events).Inv :=
      foldl_invariant (P := Run.Inv) (fun r e h => h.step e) (.start d) events
    have hnext : runDeletion d (events++[e]) = (runDeletion d events).step e := by
      simp [runDeletion]
    rw [hnext,hinv.meets_step,ih,along_append]
    exact and_congr_right' (and_iff_left trivial).symm

def sampleDocument : Document := ⟨"likes tea",none,some "r1"⟩

def sampleUpdate : ContentUpdate := ⟨"likes coffee","r1","r2"⟩

/-- The memory is updated between the backup and the BM25 step, and the vector step fails. -/
def overtakenBackup : List (Event Unit) :=
  [.update () (.call sampleUpdate),.delete .call,.delete (.readBackup .done),
    .update () (.commit .done),.update () (.deleteVector .done),.update () (.insertVector .done),
    .update () (.refreshBm25 .done),.delete (.deleteBm25 .done),
    .delete (.deleteVector (.raised .nothing)),.delete (.rollback .done)]

/-- The rollback writes the old text over the new one. -/
theorem overtakenBackup_fails : ¬(runDeletion sampleDocument overtakenBackup).Meets ∧
    (runDeletion sampleDocument overtakenBackup).world.rollbacks =
    [("likes tea",some "likes coffee")] := by
  have hrollbacks : (runDeletion sampleDocument overtakenBackup).world.rollbacks =
      [("likes tea",some "likes coffee")] := by decide +kernel
  refine ⟨?_,hrollbacks⟩
  intro h
  have hwritten := h.canonical ("likes tea",some "likes coffee") (by rw [hrollbacks]; simp)
  exact absurd hwritten (by decide)

end Memora.Deletions
