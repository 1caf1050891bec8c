import Memora.TextWords

/-! Each atom is compared with the atoms kept so far; where it is similar to one of them, the more
confident of the two stands in the place of the kept one. -/
namespace Memora.Atoms

open TextWords

/-- What `str` and `float` do to contents and confidences. -/
structure DedupOps (F : Type*) where
  lower : List Char → List Char
  isSpace : Char → Bool
  /-- The quotient of two sizes, as a float. -/
  ratio : ℕ → ℕ → F

structure DedupAtom (F : Type*) where
  content : List Char
  confidence : F
  deriving DecidableEq

variable {F : Type*} [LinearOrder F] {ops : DedupOps F} {threshold : F}

variable (ops : DedupOps F)

def contentTokens (content : List Char) : Finset (List Char) :=
  let content := ops.lower content
  let tokens := (words ops.isSpace content).toFinset
  let chars := content.filter (· ≠ ' ')
  if tokens.card < 3 ∧ 4 ≤ chars.length then
    ((chars.zip chars.tail).map fun p => [p.1,p.2]).toFinset
  else tokens

variable (threshold : F)

def similarContents (atom existing : DedupAtom F) : Bool :=
  let tokens := contentTokens ops atom.content
  let exTokens := contentTokens ops existing.content
  2 ≤ tokens.card && 2 ≤ exTokens.card &&
    threshold ≤ ops.ratio (tokens ∩ exTokens).card (max 1 (tokens ∪ exTokens).card)

section Loop

variable {α : Type*} (similar : α → α → Bool) (confidence : α → F)

/-- One turn of the loop: the first kept atom that is similar decides. -/
def dedupStep (kept : List α) (atom : α) : List α :=
  match kept.span fun existing => !similar atom existing with
  | (_,[]) => kept++[atom]
  | (before,existing::after) =>
    if confidence existing < confidence atom then before++atom::after else kept

def dedupLoop (atoms : List α) : List α := atoms.foldl (dedupStep similar confidence) []

end Loop

variable (atoms : List (DedupAtom F))

def dedupAtomsBatch : List (DedupAtom F) :=
  if atoms.length ≤ 1 then atoms
  else dedupLoop (similarContents ops threshold) DedupAtom.confidence atoms

section Loop

variable {α : Type*} {similar : α → α → Bool} {confidence : α → F} {atoms kept : List α} {atom : α}

/-- The kept atoms stand in the order of the batch, no two of them are similar, and whatever is
left out is similar to a kept atom that is at least as confident. -/
structure Deduplicated (similar : α → α → Bool) (confidence : α → F) (atoms kept : List α) :
    Prop where
  sublist : kept.Sublist atoms
  apart : kept.Pairwise fun a b => similar b a = false
  covered : ∀ a ∈ atoms, a ∉ kept → ∃ b ∈ kept, similar a b = true ∧ confidence a ≤ confidence b

def Harmless (similar : α → α → Bool) (confidence : α → F) (atoms kept : List α)
    (atom : α) : Prop :=
  match kept.span fun existing => !similar atom existing with
  | (_,[]) => True
  | (before,existing::after) => confidence existing < confidence atom → after = [] ∧ ∀ a ∈ atoms, a ∉ before →
        ∃ b ∈ before++[atom], similar a b = true ∧ confidence a ≤ confidence b

lemma span_eq {p : α → Bool} {l before after : List α} (h : l.span p = (before,after)) :
    l = before++after ∧ (∀ a ∈ before, p a = true) ∧ ∀ a ∈ after.head?, p a = false := by
  rw [List.span_eq_takeWhile_dropWhile,Prod.mk.injEq] at h
  obtain ⟨rfl,rfl⟩ := h
  refine ⟨List.takeWhile_append_dropWhile.symm,fun a ha => List.mem_takeWhile_imp ha,?_⟩
  intro a ha
  have hhead := List.head?_dropWhile_not p l
  rw [Option.mem_def.mp ha] at hhead
  simpa using hhead

lemma last_of_sublist {before after : List α} (h : (before++atom::after).Sublist (atoms++[atom]))
    (hnew : atom ∉ atoms) : after = [] := by
  obtain ⟨l,r,heq,hl,hr⟩ := List.sublist_append_iff.mp h
  have hout : atom ∉ l := fun hmem => hnew (hl.subset hmem)
  rcases List.eq_nil_or_concat after with rfl | ⟨init,c,rfl⟩
  · rfl
  · rcases List.sublist_singleton.mp hr with rfl | rfl
    · rw [List.append_nil] at heq
      exact absurd (heq ▸ by simp) hout
    · rw [List.concat_eq_append,← List.cons_append,← List.append_assoc] at heq
      have hinit := (List.append_inj' heq rfl).1
      exact absurd (hinit ▸ by simp) hout

lemma Deduplicated.step_iff (h : Deduplicated similar confidence atoms kept) (hnew : atom ∉ atoms) :
    Deduplicated similar confidence (atoms++[atom]) (dedupStep similar confidence kept atom) ↔
      Harmless similar confidence atoms kept atom := by
  unfold dedupStep Harmless
  have hkept : ∀ a ∈ atoms++[atom], a ∉ kept → a ≠ atom →
      ∃ b ∈ kept, similar a b = true ∧ confidence a ≤ confidence b := by
    intro a ha hout hne
    rcases List.mem_append.mp ha with ha | ha
    · exact h.covered a ha hout
    · exact absurd (List.mem_singleton.mp ha) hne
  match hspan : kept.span fun existing => !similar atom existing with
  | (before,[]) =>
    obtain ⟨heq,hbefore,-⟩ := span_eq hspan
    rw [List.append_nil] at heq
    subst heq
    refine iff_of_true ⟨h.sublist.append (List.Sublist.refl _),?_,?_⟩ trivial
    · refine List.pairwise_append.mpr ⟨h.apart,List.pairwise_singleton _ _,?_⟩
      intro a ha b hb
      rw [List.mem_singleton.mp hb]
      simpa using hbefore a ha
    · intro a ha hout
      rw [List.mem_append,not_or,List.mem_singleton] at hout
      obtain ⟨b,hb,hcover⟩ := hkept a ha hout.1 hout.2
      exact ⟨b,List.mem_append_left _ hb,hcover⟩
  | (before,existing::after) =>
    obtain ⟨rfl,hbefore,hexisting⟩ := span_eq hspan
    have hsimilar : similar atom existing = true := by simpa using hexisting existing rfl
    dsimp only
    split
    · rename_i hlt
      rw [forall_prop_of_true hlt]
      constructor
      · intro hd
        refine ⟨last_of_sublist hd.sublist hnew,fun a ha hout => ?_⟩
        have hlast := last_of_sublist hd.sublist hnew
        subst hlast
        refine hd.covered a (List.mem_append_left _ ha) ?_
        rw [List.mem_append,not_or,List.mem_singleton]
        exact ⟨hout,fun heq => hnew (heq ▸ ha)⟩
      · rintro ⟨rfl,hcovers⟩
        have hbeforeAtoms : before.Sublist atoms := (List.sublist_append_left before [existing]).trans h.sublist
        refine ⟨hbeforeAtoms.append (List.Sublist.refl _),?_,?_⟩
        · refine List.pairwise_append.mpr
            ⟨h.apart.sublist (List.sublist_append_left _ _),List.pairwise_singleton _ _,?_⟩
          intro a ha b hb
          rw [List.mem_singleton.mp hb]
          simpa using hbefore a ha
        · intro a ha hout
          rw [List.mem_append,not_or] at hout
          rcases List.mem_append.mp ha with ha | ha
          · exact hcovers a ha hout.1
          · exact absurd ha hout.2
    · rename_i hle
      refine iff_of_true ⟨h.sublist.trans (List.sublist_append_left _ _),h.apart,?_⟩
        fun hlt => absurd hlt hle
      intro a ha hout
      by_cases hatom : a = atom
      · subst hatom
        exact ⟨existing,by simp,hsimilar,not_lt.mp hle⟩
      · exact hkept a ha hout hatom

lemma dedupLoop_concat (atoms : List α) (atom : α) : dedupLoop similar confidence (atoms++[atom]) =
      dedupStep similar confidence (dedupLoop similar confidence atoms) atom := by
  simp [dedupLoop]

/-- A batch of distinct atoms is deduplicated up to each of its atoms exactly where each of them
is harmless for what is kept of the atoms before it. -/
theorem deduplicated_iff (hdistinct : atoms.Nodup) :
    (∀ n, Deduplicated similar confidence (atoms.take n)
      (dedupLoop similar confidence (atoms.take n))) ↔
    ∀ n (h : n < atoms.length), Harmless similar confidence (atoms.take n)
      (dedupLoop similar confidence (atoms.take n)) atoms[n] := by
  have hnew : ∀ n (h : n < atoms.length), atoms[n] ∉ atoms.take n := by
    intro n h hmem
    obtain ⟨i,hi,heq⟩ := List.mem_take_iff_getElem.mp hmem
    have hin := (hdistinct.getElem_inj_iff).mp heq
    omega
  have htake : ∀ n (h : n < atoms.length), atoms.take (n+1) = atoms.take n++[atoms[n]] :=
    fun n h => (List.take_append_getElem h).symm
  constructor
  · intro h n hn
    have hnext := h (n+1)
    rw [htake n hn,dedupLoop_concat] at hnext
    exact ((h n).step_iff (hnew n hn)).mp hnext
  · intro h n
    induction n with
    | zero => exact ⟨List.Sublist.refl _,List.Pairwise.nil,by simp⟩
    | succ n ih =>
      by_cases hn : n < atoms.length
      · rw [htake n hn,dedupLoop_concat]
        exact (ih.step_iff (hnew n hn)).mpr (h n hn)
      · rw [List.take_of_length_le (by omega)]
        rwa [List.take_of_length_le (by omega)] at ih

lemma harmless_of_le (hle : ∀ a ∈ kept, similar atom a = true → confidence atom ≤ confidence a) :
    Harmless similar confidence atoms kept atom := by
  unfold Harmless
  match hspan : kept.span fun existing => !similar atom existing with
  | (before,[]) => trivial
  | (before,existing::after) =>
    obtain ⟨rfl,-,hexisting⟩ := span_eq hspan
    have hsimilar : similar atom existing = true := by simpa using hexisting existing rfl
    exact fun hlt => absurd hlt (not_lt_of_ge (hle existing (by simp) hsimilar))

/-- A batch in which no atom is more confident than an earlier one it is similar to is
deduplicated. -/
theorem deduplicated_of_ordered (hdistinct : atoms.Nodup)
    (hordered : atoms.Pairwise fun a b => similar b a = true → confidence b ≤ confidence a) :
    Deduplicated similar confidence atoms (dedupLoop similar confidence atoms) := by
  induction atoms using List.reverseRecOn with
  | nil => exact ⟨List.Sublist.refl _,List.Pairwise.nil,by simp⟩
  | append_singleton atoms atom ih =>
    obtain ⟨hbefore,-,hlast⟩ := List.pairwise_append.mp hordered
    obtain ⟨hnodup,-,hnew⟩ := List.nodup_append.mp hdistinct
    have hd := ih hnodup hbefore
    rw [dedupLoop_concat]
    refine (hd.step_iff fun hmem => hnew atom hmem atom (by simp) rfl).mpr (harmless_of_le ?_)
    exact fun a ha => hlast a (hd.sublist.subset ha) atom (by simp)

lemma map_dedupStep {β : Type*} (f : β → α) (kept : List β) (atom : β) :
    (dedupStep (fun a b => similar (f a) (f b)) (fun a => confidence (f a)) kept atom).map f =
      dedupStep similar confidence (kept.map f) (f atom) := by
  have hspan : (kept.map f).span (fun existing => !similar (f atom) existing) =
      ((kept.span fun existing => !similar (f atom) (f existing)).1.map f,
        (kept.span fun existing => !similar (f atom) (f existing)).2.map f) := by
    simp [List.span_eq_takeWhile_dropWhile,List.takeWhile_map,List.dropWhile_map, Function.comp_def]
  unfold dedupStep
  rw [hspan]
  match kept.span fun existing => !similar (f atom) (f existing) with
  | (before,[]) => simp
  | (before,existing::after) =>
    dsimp only [List.map_cons]
    by_cases hlt : confidence (f existing) < confidence (f atom) <;> simp [hlt]

end Loop

def keptAtoms : List (DedupAtom F × ℕ) :=
  dedupLoop (fun a b => similarContents ops threshold a.1 b.1) (fun a => a.1.confidence)
  atoms.zipIdx

lemma keptAtoms_fst : (keptAtoms ops threshold atoms).map Prod.fst =
    dedupAtomsBatch ops threshold atoms := by
  have hloop : ∀ (tagged : List (DedupAtom F × ℕ)) (kept : List (DedupAtom F × ℕ)),
      (tagged.foldl (dedupStep (fun a b => similarContents ops threshold a.1 b.1)
        fun a => a.1.confidence) kept).map Prod.fst =
      (tagged.map Prod.fst).foldl
        (dedupStep (similarContents ops threshold) DedupAtom.confidence) (kept.map Prod.fst) := by
    intro tagged
    induction tagged with
    | nil => exact fun _ => rfl
    | cons a tagged ih =>
      intro kept
      rw [List.foldl_cons,ih,map_dedupStep Prod.fst kept a]
      rfl
  have hmap := hloop atoms.zipIdx []
  rw [List.zipIdx_map_fst] at hmap
  unfold keptAtoms dedupLoop dedupAtomsBatch
  rw [hmap]
  split
  · rename_i hshort
    match atoms with
    | [] => rfl
    | [_] => rfl
    | _::_::_ => simp at hshort
  · rfl

lemma take_zipIdx {β : Type*} (l : List β) (n : ℕ) : l.zipIdx.take n = (l.take n).zipIdx :=
  List.ext_getElem (by simp) (by simp)

/-- A batch is deduplicated, up to each of its atoms, exactly where an atom replaces a kept one
only if that is the last kept one and the newcomer is similar to all that it stood for. -/
theorem dedup_batch_iff (ops : DedupOps F) (threshold : F) (atoms : List (DedupAtom F)) :
    (∀ n, (keptAtoms ops threshold (atoms.take n)).map Prod.fst = dedupAtomsBatch ops threshold (atoms.take n) ∧
      Deduplicated (fun a b => similarContents ops threshold a.1 b.1) (fun a => a.1.confidence)
        (atoms.take n).zipIdx (keptAtoms ops threshold (atoms.take n))) ↔
    ∀ n (h : n < atoms.length),
      Harmless (fun a b => similarContents ops threshold a.1 b.1) (fun a => a.1.confidence)
        (atoms.take n).zipIdx (keptAtoms ops threshold (atoms.take n)) (atoms[n],n) := by
  have hdistinct : atoms.zipIdx.Nodup := (List.nodup_zipIdx_map_snd atoms).of_map
  have hiff := @deduplicated_iff F _ _ (fun a b => similarContents ops threshold a.1 b.1)
    (fun a => a.1.confidence) _ hdistinct
  simp only [take_zipIdx,List.length_zipIdx,List.getElem_zipIdx,Nat.zero_add] at hiff
  simp only [keptAtoms_fst,true_and]
  exact hiff

theorem dedup_batch_ordered (ops : DedupOps F) (threshold : F) (atoms : List (DedupAtom F))
    (hordered : atoms.Pairwise fun a b =>
      similarContents ops threshold b a = true → b.confidence ≤ a.confidence) :
    Deduplicated (fun a b => similarContents ops threshold a.1 b.1) (fun a => a.1.confidence)
      atoms.zipIdx (keptAtoms ops threshold atoms) := by
  refine deduplicated_of_ordered (List.nodup_zipIdx_map_snd atoms).of_map ?_
  rw [← List.zipIdx_map_fst 0 atoms,List.pairwise_map] at hordered
  exact hordered

def plainOps : DedupOps ℚ := ⟨id,fun c => c = ' ',fun n m => (n : ℚ) / m⟩

def sampleBatch : List (DedupAtom ℚ) :=
  [⟨"a b c d".toList,1 / 2⟩,⟨"a b c".toList,1 / 4⟩,⟨"b c d".toList,3 / 4⟩]

/-- The second atom is dropped for the first, and the third, which replaces the first, is not
similar to it. -/
theorem dropped_atom_uncovered : dedupAtomsBatch plainOps (7 / 10) sampleBatch =
    [⟨"b c d".toList,3 / 4⟩] ∧
      ¬ Deduplicated (fun a b => similarContents plainOps (7 / 10) a.1 b.1)
        (fun a => a.1.confidence) sampleBatch.zipIdx (keptAtoms plainOps (7 / 10) sampleBatch) := by
  have hkept : keptAtoms plainOps (7 / 10) sampleBatch = [(⟨"b c d".toList,3 / 4⟩,2)] := by
    decide +kernel
  refine ⟨by decide +kernel,fun h => ?_⟩
  rw [hkept] at h
  obtain ⟨b,hb,hsimilar,-⟩ := h.covered (⟨"a b c".toList,1 / 4⟩,1) (by decide +kernel)
    (by decide +kernel)
  obtain rfl := List.mem_singleton.mp hb
  revert hsimilar
  decide +kernel

end Memora.Atoms
