import Mathlib

/-! Rows are sorted and cut, which may leave out whole groups of them. Two cut streams are read in
turn; a row that fails its check ends the reading with nothing, and of the rows with one key only
the first counts. -/
namespace Memora.RankedStreams

variable {ρ γ κ : Type*}

structure Sorter (ρ : Type*) where
  sort : (ρ → ρ → Bool) → List ρ → List ρ
  perm : ∀ le rows, (sort le rows).Perm rows
  sorted : ∀ le : ρ → ρ → Bool, (∀ a b, le a b = true ∨ le b a = true) →
    (∀ a b c, le a b = true → le b c = true → le a c = true) →
    ∀ rows, (sort le rows).Pairwise fun a b => le a b = true

def Sorter.insertion : Sorter ρ where
  sort le rows := rows.insertionSort fun a b => le a b = true
  perm _ rows := List.perm_insertionSort _ rows
  sorted le htotal htrans rows :=
    haveI : Std.Total fun a b => le a b = true := ⟨htotal⟩
    haveI : IsTrans ρ fun a b => le a b = true := ⟨htrans⟩
    List.pairwise_insertionSort _ rows

lemma exists_tied_take {le : ρ → ρ → Bool}
    (htrans : ∀ a b c, le a b = true → le b c = true → le a c = true) {rows : List ρ}
    (h : rows.Pairwise fun a b => le a b = true) {t : ρ}
    (ht : ∃ y ∈ rows, le y t = true ∧ le t y = true) (n : ℕ) :
    (∃ y ∈ rows.take n, le y t = true ∧ le t y = true) ↔ rows.countP (fun y => !le t y) < n := by
  induction rows generalizing n with
  | nil =>
    obtain ⟨y,hy,-⟩ := ht
    cases hy
  | cons a rows ih =>
    obtain ⟨ha,hrows⟩ := List.pairwise_cons.mp h
    cases hta : le t a with
    | false =>
      -- `a` comes before `t`
      have htail : ∃ y ∈ rows, le y t = true ∧ le t y = true := by
        obtain ⟨y,hy,hyt,hty⟩ := ht
        rcases List.mem_cons.mp hy with rfl | hy
        · rw [hta] at hty
          cases hty
        · exact ⟨y,hy,hyt,hty⟩
      rw [List.countP_cons_of_pos (by simp [hta])]
      cases n with
      | zero => simp
      | succ n =>
        rw [Nat.add_lt_add_iff_right,← ih hrows htail n,List.take_succ_cons]
        constructor
        · rintro ⟨y,hy,hyt,hty⟩
          rcases List.mem_cons.mp hy with rfl | hy
          · rw [hta] at hty
            cases hty
          · exact ⟨y,hy,hyt,hty⟩
        · rintro ⟨y,hy,hyt,hty⟩
          exact ⟨y,List.mem_cons_of_mem a hy,hyt,hty⟩
    | true =>
      -- no row before `t` is left
      have hnone : (a::rows).countP (fun y => !le t y) = 0 := by
        refine List.countP_eq_zero.mpr fun y hy => ?_
        rcases List.mem_cons.mp hy with rfl | hy
        · simp [hta]
        · simp [htrans t a y hta (ha y hy)]
      have hat : le a t = true := by
        obtain ⟨y,hy,hyt,-⟩ := ht
        rcases List.mem_cons.mp hy with rfl | hy
        · exact hyt
        · exact htrans a y t (ha y hy) hyt
      rw [hnone]
      cases n with
      | zero => simp
      | succ n => simp [hat,hta]

section Reading
variable [DecidableEq κ] (check : ρ → Option γ) (key : γ → κ) (most : ℕ)

def offer (row : ρ) (out : List γ) : Option (List γ) :=
  (check row).map fun c => if key c ∈ out.map key then out else out++[c]

def read : List ρ → List γ → Option (List γ)
  | [], out => some out
  | row::rows, out =>
    if most ≤ out.length then some out else (offer check key row out).bind (read rows)

def readTwo : List ρ → List ρ → List γ → Option (List γ)
  | [], recent, out => read check key most recent out
  | row::frequent, recent, out =>
    if most ≤ out.length then some out
    else
      (offer check key row out).bind fun out =>
        if most ≤ out.length then some out
        else
          match recent with
          | [] => readTwo frequent [] out
          | row::recent => (offer check key row out).bind (readTwo frequent recent)

def alternate : List ρ → List ρ → List ρ
  | [], recent => recent
  | row::frequent, [] => row::alternate frequent []
  | row::frequent, row'::recent => row::row'::alternate frequent recent

omit [DecidableEq κ] in
lemma mem_alternate {frequent recent : List ρ} {row : ρ} :
    row ∈ alternate frequent recent ↔ row ∈ frequent ∨ row ∈ recent := by
  induction frequent generalizing recent with
  | nil => simp [alternate]
  | cons first frequent ih =>
    cases recent with
    | nil => simp [alternate,ih]
    | cons second recent =>
      simp only [alternate,List.mem_cons,ih]
      tauto

variable {rows : List ρ} {out : List γ}

lemma read_full (h : most ≤ out.length) : read check key most rows out = some out := by
  cases rows with
  | nil => rfl
  | cons row rows => rw [read,if_pos h]

variable {check key most} in
lemma offer_mem {row : ρ} {out out' : List γ} (h : offer check key row out = some out') :
    ∀ c ∈ out', c ∈ out ∨ check row = some c := by
  obtain ⟨a,ha,rfl⟩ := Option.map_eq_some_iff.mp h
  intro c hc
  split at hc
  · exact .inl hc
  · rcases List.mem_append.mp hc with hold | hlast
    · exact .inl hold
    · rw [List.mem_singleton.mp hlast]
      exact .inr ha

variable {check key most} in
lemma read_mem {rows : List ρ} {out out' : List γ} (h : read check key most rows out = some out') :
    ∀ c ∈ out', c ∈ out ∨ ∃ row ∈ rows, check row = some c := by
  induction rows generalizing out with
  | nil =>
    cases h
    exact fun c hc => .inl hc
  | cons row rows ih =>
    rw [read] at h
    split at h
    · cases h
      exact fun c hc => .inl hc
    · obtain ⟨mid,hoffer,hrest⟩ := Option.bind_eq_some_iff.mp h
      intro c hc
      rcases ih hrest c hc with hmid | ⟨r,hr,hcheck⟩
      · exact (offer_mem hoffer c hmid).imp id fun hcheck => ⟨row,List.mem_cons_self ..,hcheck⟩
      · exact .inr ⟨r,List.mem_cons_of_mem _ hr,hcheck⟩

lemma readTwo_eq (frequent recent : List ρ) (out : List γ) :
    readTwo check key most frequent recent out =
      read check key most (alternate frequent recent) out := by
  induction frequent generalizing recent out with
  | nil => rfl
  | cons row frequent ih =>
    rw [readTwo]
    by_cases hfull : most ≤ out.length
    · rw [if_pos hfull,read_full check key most hfull]
    rw [if_neg hfull]
    cases recent with
    | nil =>
      rw [alternate,read,if_neg hfull]
      congr 1
      funext out'
      by_cases hfull' : most ≤ out'.length
      · rw [if_pos hfull',read_full check key most hfull']
      · rw [if_neg hfull']
        exact ih [] out'
    | cons row' recent =>
      rw [alternate,read,if_neg hfull]
      congr 1
      funext out'
      by_cases hfull' : most ≤ out'.length
      · rw [if_pos hfull',read_full check key most hfull']
      · rw [if_neg hfull',read,if_neg hfull']
        exact congrArg (offer check key row' out').bind (funext fun out'' => ih recent out'')

variable (rowKey : ρ → κ)

def keys (rows : List ρ) : Finset κ := (rows.map rowKey).toFinset

def Readable (rows : List ρ) (seen : Finset κ) : Prop :=
  ∀ j row, rows[j]? = some row → (seen ∪ keys rowKey (rows.take j)).card < most →
  (check row).isSome = true

variable {check key most rowKey} {seen : Finset κ}

omit [DecidableEq κ] in
lemma mem_keys [DecidableEq κ] {k : κ} : k ∈ keys rowKey rows ↔ ∃ row ∈ rows, rowKey row = k := by
  simp [keys]

lemma union_keys_cons (seen : Finset κ) (row : ρ) (rows : List ρ) :
    seen ∪ keys rowKey (row::rows) = insert (rowKey row) seen ∪ keys rowKey rows := by
  ext k
  simp only [keys,List.map_cons,List.toFinset_cons,Finset.mem_union,Finset.mem_insert]
  tauto

lemma readable_cons {row : ρ} : Readable check most rowKey (row::rows) seen ↔
      (seen.card < most → (check row).isSome = true) ∧
        Readable check most rowKey rows (insert (rowKey row) seen) := by
  constructor
  · intro h
    refine ⟨fun hcard => h 0 row rfl (by simpa [keys] using hcard),fun j row' hrow' hcard => ?_⟩
    refine h (j+1) row' (by simpa using hrow') ?_
    rw [List.take_succ_cons,union_keys_cons]
    exact hcard
  · rintro ⟨hfirst,hrest⟩ j row' hrow' hcard
    cases j with
    | zero =>
      obtain rfl : row = row' := by simpa using hrow'
      exact hfirst (by simpa [keys] using hcard)
    | succ j =>
      refine hrest j row' (by simpa using hrow') ?_
      rw [List.take_succ_cons,union_keys_cons] at hcard
      exact hcard

lemma readable_full (h : most ≤ seen.card) :
    Readable check most rowKey rows seen := by
  intro j row _ hcard
  have hle : seen.card ≤ (seen ∪ keys rowKey (rows.take j)).card :=
    Finset.card_le_card Finset.subset_union_left
  omega

structure Distinct (key : γ → κ) (most : ℕ) (out : List γ) : Prop where
  nodup : (out.map key).Nodup
  most : out.length ≤ most

lemma Distinct.card (h : Distinct key most out) : (keys key out).card = out.length := by
  rw [keys,List.toFinset_card_of_nodup h.nodup,List.length_map]

lemma offer_some (hkey : ∀ row c, check row = some c → key c = rowKey row) {row : ρ} {c : γ}
    (hout : Distinct key most out) (hless : out.length < most) (hc : check row = some c) :
    ∃ out', offer check key row out = some out' ∧ Distinct key most out' ∧
      keys key out' = insert (rowKey row) (keys key out) := by
  unfold offer
  rw [hc,Option.map_some]
  by_cases hold : key c ∈ out.map key
  · refine ⟨out,by rw [if_pos hold],hout,?_⟩
    rw [← hkey row c hc,Finset.insert_eq_of_mem]
    exact List.mem_toFinset.mpr hold
  · refine ⟨out++[c],by rw [if_neg hold],⟨?_,by simpa using hless⟩,?_⟩
    · rw [List.map_append,List.map_singleton]
      refine List.nodup_append.mpr ⟨hout.nodup,by simp,?_⟩
      rintro a ha b hb rfl
      rw [List.mem_singleton.mp hb] at ha
      exact hold ha
    · rw [← hkey row c hc]
      ext k
      simp only [keys,List.map_append,List.map_singleton,List.mem_toFinset,List.mem_append,
        List.mem_singleton,Finset.mem_insert]
      tauto

lemma read_readable (hkey : ∀ row c, check row = some c → key c = rowKey row)
    (hout : Distinct key most out) (h : Readable check most rowKey rows (keys key out)) :
    ∃ out', read check key most rows out = some out' ∧ Distinct key most out' ∧
      out'.length = min most (keys key out ∪ keys rowKey rows).card ∧
      keys key out' ⊆ keys key out ∪ keys rowKey rows := by
  induction rows generalizing out with
  | nil =>
    refine ⟨out,rfl,hout,?_,Finset.subset_union_left⟩
    have hle := hout.most
    simp only [keys,List.map_nil,List.toFinset_nil,Finset.union_empty]
    rw [← keys,hout.card]
    omega
  | cons row rows ih =>
    rw [read]
    split
    · rename_i hfull
      refine ⟨out,rfl,hout,?_,Finset.subset_union_left⟩
      have hle := hout.most
      have hcard : out.length ≤ (keys key out ∪ keys rowKey (row::rows)).card := by
        rw [← hout.card]
        exact Finset.card_le_card Finset.subset_union_left
      omega
    · rename_i hless
      obtain ⟨hfirst,hrest⟩ := readable_cons.mp h
      obtain ⟨c,hc⟩ := Option.isSome_iff_exists.mp (hfirst (by rw [hout.card]; omega))
      obtain ⟨out',hoffer,hout',hkeys⟩ := offer_some hkey hout (by omega) hc
      rw [hoffer,Option.bind_some,union_keys_cons,← hkeys]
      rw [← hkeys] at hrest
      exact ih hout' hrest

theorem read_unreadable (hkey : ∀ row c, check row = some c → key c = rowKey row)
    (hout : Distinct key most out) (h : ¬Readable check most rowKey rows (keys key out)) :
    read check key most rows out = none := by
  induction rows generalizing out with
  | nil => exact absurd (fun j row hrow => by simp at hrow) h
  | cons row rows ih =>
    rw [read]
    split
    · rename_i hfull
      exact absurd (readable_full (by rw [hout.card]; exact hfull)) h
    · rename_i hless
      cases hc : check row with
      | none => simp [offer,hc]
      | some c =>
        obtain ⟨out',hoffer,hout',hkeys⟩ := offer_some hkey hout (by omega) hc
        rw [hoffer,Option.bind_some]
        refine ih hout' fun hrest => h (readable_cons.mpr ⟨fun _ => by simp [hc],?_⟩)
        rw [← hkeys]
        exact hrest

end Reading

end Memora.RankedStreams
