import Mathlib

/-! Replacing every occurrence of a marker, and removing every stretch between a header and the
next footer, scanned from the left without overlaps. -/
namespace Memora.TextPatterns

variable {α : Type*} [DecidableEq α]

/-- The scan behind `replaceAll`; the number is how many symbols of a match are still skipped. -/
def replaceFrom (marker replacement : List α) : ℕ → List α → List α
  | _, [] => []
  | n+1, _::s => replaceFrom marker replacement n s
  | 0, c::s =>
    if marker <+: c::s then replacement++replaceFrom marker replacement (marker.length - 1) s
    else c::replaceFrom marker replacement 0 s

def replaceAll (marker replacement s : List α) : List α := replaceFrom marker replacement 0 s

lemma replaceFrom_drop (marker replacement : List α) (n : ℕ) (s : List α) :
    replaceFrom marker replacement n s = replaceFrom marker replacement 0 (s.drop n) := by
  induction n generalizing s with
  | zero => rw [List.drop_zero]
  | succ n ih =>
    cases s with
    | nil => simp [replaceFrom]
    | cons c s => rw [replaceFrom,List.drop_succ_cons,ih]

inductive Inserted (z : α) : List α → List α → Prop
  | nil : Inserted z [] []
  | keep (c : α) {s s' : List α} (h : Inserted z s s') : Inserted z (c::s) (c::s')
  | add {s s' : List α} (h : Inserted z s s') : Inserted z s (z::s')

variable {z : α} {s s' m : List α} {n : ℕ} {a : α}

omit [DecidableEq α] in
lemma Inserted.append (h : Inserted z s s') (p : List α) : Inserted z (p++s) (p++s') := by
  induction p with
  | nil => exact h
  | cons c p ih => exact .keep c ih

omit [DecidableEq α] in
lemma Inserted.isPrefix_of (h : Inserted z s s') (hz : z ∉ m) (hm : m <+: s') : m <+: s := by
  induction h generalizing m with
  | nil => exact hm
  | keep c _ ih =>
    cases m with
    | nil => exact List.nil_prefix
    | cons d m =>
      obtain ⟨rfl,hrest⟩ := List.cons_prefix_cons.mp hm
      exact List.cons_prefix_cons.mpr ⟨rfl,ih (fun h => hz (List.mem_cons_of_mem _ h)) hrest⟩
  | add _ _ =>
    cases m with
    | nil => exact List.nil_prefix
    | cons d m =>
      obtain ⟨rfl,-⟩ := List.cons_prefix_cons.mp hm
      exact absurd (List.mem_cons_self ..) hz

omit [DecidableEq α] in
lemma Inserted.isInfix_of (h : Inserted z s s') (hz : z ∉ m) (hm : m <:+: s') : m <:+: s := by
  induction h with
  | nil => exact hm
  | keep c h ih =>
    rcases List.infix_cons_iff.mp hm with hfirst | hlater
    · exact ((Inserted.keep c h).isPrefix_of hz hfirst).isInfix
    · exact (ih hlater).trans (List.infix_cons List.infix_rfl)
  | add h ih =>
    rcases List.infix_cons_iff.mp hm with hfirst | hlater
    · exact ((Inserted.add h).isPrefix_of hz hfirst).isInfix
    · exact ih hlater

theorem replaceAll_inserted (body : List α) (last : α) (s : List α) :
    Inserted z s (replaceAll (body++[last]) (body++[z,last]) s) := by
  unfold replaceAll
  induction hn : s.length using Nat.strong_induction_on generalizing s with
  | _ n ih =>
    subst hn
    cases s with
    | nil => exact .nil
    | cons c s =>
      rw [replaceFrom]
      split
      · rename_i hmatch
        obtain ⟨rest,hrest⟩ := hmatch
        have hdrop : s.drop ((body++[last]).length - 1) = rest := by
          have h := congrArg (List.drop (body++[last]).length) hrest
          rw [List.drop_left] at h
          rw [h,List.length_append,List.length_singleton,Nat.add_sub_cancel,List.drop_succ_cons]
        have hshort : rest.length < (c::s).length := by
          rw [← hrest,List.length_append,List.length_append,List.length_singleton]
          omega
        rw [replaceFrom_drop,hdrop,← hrest,List.append_assoc,List.append_assoc]
        exact ((Inserted.keep last (ih _ hshort rest rfl)).add).append body
      · exact .keep c (ih s.length (by simp) s rfl)

omit [DecidableEq α] in
theorem infix_append_of_head_not_mem {a : α} {t p q : List α} (hp : a ∉ p)
    (hm : a::t <:+: p++q) : a::t <:+: q := by
  induction p with
  | nil => exact hm
  | cons c p ih =>
    rcases List.infix_cons_iff.mp hm with hfirst | hlater
    · obtain ⟨rfl,-⟩ := List.cons_prefix_cons.mp hfirst
      exact absurd (List.mem_cons_self ..) hp
    · exact ih (fun h => hp (List.mem_cons_of_mem _ h)) hlater

lemma not_infix_replaceAll {body : List α} {last : α} (ha : a ∉ body++[z,last])
    (hz : z ∉ a::body++[last]) (s : List α) :
    ¬a::body++[last] <:+: replaceAll (a::body++[last]) (a::body++[z,last]) s := by
  have hinserted : ∀ s, Inserted z s (replaceAll (a::body++[last]) (a::body++[z,last]) s) :=
    fun s => replaceAll_inserted (a::body) last s
  unfold replaceAll at hinserted ⊢
  induction hn : s.length using Nat.strong_induction_on generalizing s with
  | _ n ih =>
    subst hn
    cases s with
    | nil => simp [replaceFrom]
    | cons c s =>
      intro hm
      have hwhole := hinserted (c::s)
      rw [replaceFrom] at hm hwhole
      split at hm
      · rename_i hmatch
        rw [replaceFrom_drop] at hm
        have hlength : (s.drop ((a::body++[last]).length - 1)).length < (c::s).length := by
          simp only [List.length_drop,List.length_cons]
          omega
        refine ih _ hlength _ rfl ?_
        have hm' : a::(body++[last]) <:+: a::((body++[z,last]) ++
            replaceFrom (a::body++[last]) (a::body++[z,last]) 0 (s.drop ((a::body++[last]).length - 1))) := by
          simpa only [List.cons_append,List.append_assoc] using hm
        rcases List.infix_cons_iff.mp hm' with hfirst | hlater
        · -- at the broken place the marker has its last symbol
          obtain ⟨-,hbody⟩ := List.cons_prefix_cons.mp hfirst
          rw [List.append_assoc,List.prefix_append_right_inj] at hbody
          obtain ⟨hlast,-⟩ := List.cons_prefix_cons.mp hbody
          exact absurd (by simp [hlast]) hz
        · exact infix_append_of_head_not_mem ha hlater
      · rename_i hmatch
        rw [if_neg hmatch] at hwhole
        rcases List.infix_cons_iff.mp hm with hfirst | hlater
        · exact hmatch (hwhole.isPrefix_of hz hfirst)
        · exact ih s.length (by simp) s rfl hlater

lemma not_infix_replaceAll_of_not {body : List α} {last : α} (hz : z ∉ m) (h : ¬m <:+: s) :
    ¬m <:+: replaceAll (body++[last]) (body++[z,last]) s :=
  fun hm => h ((replaceAll_inserted body last s).isInfix_of hz hm)

def findIndex (needle : List α) : List α → Option ℕ
  | [] => if needle = [] then some 0 else none
  | c::s => if needle <+: c::s then some 0 else (findIndex needle s).map (·+1)

lemma findIndex_some {needle s : List α} (h : findIndex needle s = some n) :
    needle <+: s.drop n ∧ n+needle.length ≤ s.length := by
  induction s generalizing n with
  | nil =>
    rw [findIndex] at h
    split at h
    · rename_i hempty
      cases h
      rw [hempty]
      exact ⟨List.nil_prefix,le_rfl⟩
    · cases h
  | cons c s ih =>
    rw [findIndex] at h
    split at h
    · rename_i hfirst
      cases h
      exact ⟨hfirst,by simpa using hfirst.length_le⟩
    · obtain ⟨k,hk,rfl⟩ := Option.map_eq_some_iff.mp h
      obtain ⟨hlater,hlength⟩ := ih hk
      refine ⟨hlater,?_⟩
      rw [List.length_cons]
      omega

lemma findIndex_eq_none {needle s : List α} : findIndex needle s = none ↔ ¬needle <:+: s := by
  induction s with
  | nil =>
    rw [findIndex,List.infix_nil]
    split <;> simp_all
  | cons c s ih =>
    rw [findIndex,List.infix_cons_iff]
    split
    · simp_all
    · simp_all

omit [DecidableEq α] in
theorem prefix_append_sep {p x tail : List α} {sep : α} (hsep : sep ∉ p) : p <+: x++sep::tail ↔
    p <+: x := by
  refine ⟨fun h => ?_,fun h => h.trans (List.prefix_append _ _)⟩
  induction x generalizing p with
  | nil =>
    cases p with
    | nil => exact List.nil_prefix
    | cons d p =>
      obtain ⟨rfl,-⟩ := List.cons_prefix_cons.mp h
      exact absurd (List.mem_cons_self ..) hsep
  | cons c x ih =>
    cases p with
    | nil => exact List.nil_prefix
    | cons d p =>
      obtain ⟨rfl,hrest⟩ := List.cons_prefix_cons.mp h
      exact List.cons_prefix_cons.mpr ⟨rfl,ih (fun h => hsep (List.mem_cons_of_mem _ h)) hrest⟩

/-- An occurrence is found before a separator or not at all, if there is none behind it. -/
theorem findIndex_append_sep {needle x tail : List α} {sep : α} (hne : needle ≠ [])
    (hsep : sep ∉ needle) (htail : ¬needle <:+: tail) :
    findIndex needle (x++sep::tail) = findIndex needle x := by
  induction x with
  | nil =>
    rw [List.nil_append,findIndex,if_neg hne,findIndex_eq_none,List.infix_cons_iff]
    rintro (hfirst | hlater)
    · exact hne (List.prefix_nil.mp ((prefix_append_sep (x := []) hsep).mp hfirst))
    · exact htail hlater
  | cons c x ih =>
    rw [List.cons_append,findIndex,findIndex,ih]
    have hiff : needle <+: c::(x++sep::tail) ↔ needle <+: c::x := prefix_append_sep (x := c::x) hsep
    by_cases hfirst : needle <+: c::x
    · rw [if_pos hfirst,if_pos (hiff.mpr hfirst)]
    · rw [if_neg hfirst,if_neg (fun h => hfirst (hiff.mp h))]

omit [DecidableEq α] in
theorem prefix_of_prefix_append {a : α} {t x rest : List α} (ha : a ∉ t) (hx : x ≠ [])
    (h : a::t <+: x++(a::t++rest)) : a::t <+: x := by
  rcases Nat.lt_or_ge x.length (a::t).length with hshort | hlong
  · have hstart : x <+: a::t := List.prefix_of_prefix_length_le (List.prefix_append _ _) h (Nat.le_of_lt hshort)
    obtain ⟨y,hy⟩ := hstart
    cases x with
    | nil => exact absurd rfl hx
    | cons c x =>
      cases y with
      | nil =>
        rw [List.append_nil] at hy
        rw [hy] at hshort
        exact absurd hshort (Nat.lt_irrefl _)
      | cons b y =>
        have h' : (c::x)++(b::y) <+: (c::x)++(a::(t++rest)) := by
          rw [hy]
          exact h
        obtain ⟨rfl,-⟩ := List.cons_prefix_cons.mp ((List.prefix_append_right_inj _).mp h')
        obtain ⟨-,ht⟩ := List.cons.inj hy
        exact absurd (by rw [← ht]; simp) ha
  · exact List.prefix_of_prefix_length_le h (List.prefix_append _ _) hlong

theorem findIndex_first {t body rest : List α} (ha : a ∉ t) (hbody : ¬a::t <:+: body) :
    findIndex (a::t) (body++(a::t++rest)) = some body.length := by
  induction body with
  | nil =>
    rw [List.nil_append,List.cons_append,findIndex,if_pos]
    · rfl
    · exact ⟨rest,rfl⟩
  | cons c body ih =>
    rw [List.infix_cons_iff,not_or] at hbody
    rw [List.cons_append,findIndex,if_neg,ih hbody.2]
    · rfl
    · exact fun h => hbody.1 (prefix_of_prefix_append ha (List.cons_ne_nil c body) h)

omit [DecidableEq α] in
theorem split_at_sep {u f y left right : List α} {sep : α} (hsep : sep ∉ f)
    (h : u++(f++y) = left++sep::right) : (∃ w, left = u++(f++w) ∧ y = w++sep::right) ∨
      ∃ u', u = left++sep::u' ∧ right = u'++(f++y) := by
  rcases List.append_eq_append_iff.mp h with ⟨a,hleft,hfy⟩ | ⟨a,hu,hright⟩
  · rcases List.append_eq_append_iff.mp hfy with ⟨b,ha,hy⟩ | ⟨b,hf,hy⟩
    · exact .inl ⟨b,by rw [hleft,ha],hy⟩
    · cases b with
      | nil =>
        rw [List.append_nil] at hf
        exact .inl ⟨[],by rw [hleft,hf,List.append_nil],hy.symm⟩
      | cons d b =>
        obtain ⟨rfl,-⟩ := List.cons.inj hy
        exact absurd (by rw [hf]; simp) hsep
  · cases a with
    | nil =>
      cases f with
      | nil => exact .inl ⟨[],by simp [hu],hright.symm⟩
      | cons d f =>
        obtain ⟨rfl,-⟩ := List.cons.inj hright
        exact absurd (List.mem_cons_self ..) hsep
    | cons d a =>
      obtain ⟨rfl,hrest⟩ := List.cons.inj hright
      exact .inr ⟨a,hu,hrest⟩

/-- How long the match at the start of a text is: the first pair whose header starts the text,
up to the end of the next footer. -/
def matchLength (delims : List (List α × List α)) (s : List α) : Option ℕ :=
  delims.findSome? fun d =>
    if d.1 <+: s then (findIndex d.2 (s.drop d.1.length)).map fun n => d.1.length+n+d.2.length
    else none

/-- The scan behind `removeAll`. -/
def removeFrom (delims : List (List α × List α)) : ℕ → List α → List α
  | _, [] => []
  | n+1, _::s => removeFrom delims n s
  | 0, c::s =>
    match matchLength delims (c::s) with
    | some n => removeFrom delims (n - 1) s
    | none => c::removeFrom delims 0 s

def removeAll (delims : List (List α × List α)) (s : List α) : List α := removeFrom delims 0 s

def occurs (delims : List (List α × List α)) : List α → Bool
  | [] => false
  | c::s => (matchLength delims (c::s)).isSome || occurs delims s

omit [DecidableEq α] in
lemma findSome?_congr {β γ : Type*} {f g : β → Option γ} {l : List β}
    (h : ∀ b ∈ l, f b = g b) : l.findSome? f = l.findSome? g := by
  induction l with
  | nil => rfl
  | cons b l ih =>
    rw [List.findSome?_cons,List.findSome?_cons,h b (by simp), ih fun b hb => h b (List.mem_cons_of_mem _ hb)]

section Removal
variable {delims : List (List α × List α)}

lemma matchLength_some (h : matchLength delims s = some n) :
    ∃ d ∈ delims, ∃ k, d.1 <+: s ∧ d.2 <+: s.drop (d.1.length+k) ∧
      n = d.1.length+k+d.2.length ∧ n ≤ s.length := by
  obtain ⟨d,hd,hmatch⟩ := List.exists_of_findSome?_eq_some h
  split at hmatch
  · rename_i hheader
    obtain ⟨k,hk,rfl⟩ := Option.map_eq_some_iff.mp hmatch
    obtain ⟨hfooter,hlength⟩ := findIndex_some hk
    rw [List.drop_drop] at hfooter
    rw [List.length_drop] at hlength
    have hfirst := hheader.length_le
    exact ⟨d,hd,k,hheader,hfooter,rfl,by omega⟩
  · cases hmatch

lemma matchLength_le (h : matchLength delims s = some n) : n ≤ s.length := by
  obtain ⟨-,-,-,-,-,-,hlength⟩ := matchLength_some h
  exact hlength

lemma matchLength_eq_none :
    matchLength delims s = none ↔ ∀ d ∈ delims, d.1 <+: s → ¬d.2 <:+: s.drop d.1.length := by
  unfold matchLength
  rw [List.findSome?_eq_none_iff]
  refine forall₂_congr fun d _ => ?_
  split
  · rename_i hheader
    rw [Option.map_eq_none_iff,findIndex_eq_none]
    exact ⟨fun h _ => h,fun h => h hheader⟩
  · rename_i hheader
    exact ⟨fun _ h => absurd h hheader,fun _ => rfl⟩

/-- A header, a body without the footer and the footer are matched as a whole, if no earlier
header starts the text. -/
theorem matchLength_envelope {earlier later : List (List α × List α)}
    {header footer body rest : List α}
    {t : List α} (hfooter : footer = a::t) (ha : a ∉ t) (hbody : ¬footer <:+: body)
    (hearlier : ∀ d ∈ earlier, ¬d.1 <+: header++(body++(footer++rest))) :
    matchLength (earlier++(header,footer)::later) (header++(body++(footer++rest))) =
      some (header++(body++footer)).length := by
  subst hfooter
  unfold matchLength
  rw [List.findSome?_append]
  have hnone : earlier.findSome? (fun d => if d.1 <+: header++(body++(a::t++rest)) then
      (findIndex d.2 ((header++(body++(a::t++rest))).drop d.1.length)).map fun n =>
        d.1.length+n+d.2.length else none) = none := by
    rw [List.findSome?_eq_none_iff]
    exact fun d hd => if_neg (hearlier d hd)
  rw [hnone,Option.none_or,List.findSome?_cons,if_pos (List.prefix_append _ _),List.drop_left,
    findIndex_first ha hbody]
  simp only [Option.map_some,List.length_append,Nat.add_assoc]

lemma removeFrom_drop (n : ℕ) (s : List α) : removeFrom delims n s =
    removeFrom delims 0 (s.drop n) := by
  induction n generalizing s with
  | zero => rw [List.drop_zero]
  | succ n ih =>
    cases s with
    | nil => simp [removeFrom]
    | cons c s => rw [removeFrom,List.drop_succ_cons,ih]

lemma removeAll_cons {c : α} {s : List α} (h : matchLength delims (c::s) = none) :
    removeAll delims (c::s) = c::removeAll delims s := by
  unfold removeAll
  rw [removeFrom,h]

lemma removeAll_match (h : matchLength delims s = some n) (hn : 0 < n) :
    removeAll delims s = removeAll delims (s.drop n) := by
  unfold removeAll
  cases s with
  | nil => simp
  | cons c s =>
    rw [removeFrom,h]
    dsimp only
    rw [removeFrom_drop]
    obtain ⟨k,rfl⟩ : ∃ k, n = k+1 := ⟨n - 1,by omega⟩
    rw [List.drop_succ_cons,Nat.add_sub_cancel]

lemma occurs_cons {c : α} {s : List α} :
    occurs delims (c::s) = ((matchLength delims (c::s)).isSome || occurs delims s) := rfl

lemma removeAll_of_not_occurs (h : occurs delims s = false) : removeAll delims s = s := by
  induction s with
  | nil => rfl
  | cons c s ih =>
    rw [occurs_cons,Bool.or_eq_false_iff] at h
    rw [removeAll_cons (by simpa using h.1),ih h.2]

lemma occurs_of_match {c : α} {s : List α} (h : (matchLength delims (c::s)).isSome = true) :
    occurs delims (c::s) = true := by
  rw [occurs_cons,h,Bool.true_or]

lemma occurs_append (x : List α) (h : occurs delims s = true) : occurs delims (x++s) = true := by
  induction x with
  | nil => exact h
  | cons c x ih => rw [List.cons_append,occurs_cons,ih,Bool.or_true]

structure Separated (sep : α) (delims : List (List α × List α)) : Prop where
  header : ∀ d ∈ delims, d.1 ≠ [] ∧ sep ∉ d.1
  footer : ∀ d ∈ delims, d.2 ≠ [] ∧ sep ∉ d.2

variable {sep : α} (hsep : Separated sep delims) {x tail : List α} {p : α → Bool}
include hsep

lemma Separated.match_pos (h : matchLength delims s = some n) : 0 < n := by
  obtain ⟨d,hd,k,-,-,rfl,-⟩ := matchLength_some h
  have hheader : 0 < d.1.length := List.length_pos_of_ne_nil (hsep.header d hd).1
  omega

lemma Separated.scan_induction {P : List α → Prop} (hnil : P [])
    (hcons : ∀ c s, matchLength delims (c::s) = none → P s → P (c::s))
    (hmatch : ∀ s n, matchLength delims s = some n → P (s.drop n) → P s) (s : List α) : P s := by
  induction hn : s.length using Nat.strong_induction_on generalizing s with
  | _ n ih =>
    subst hn
    cases s with
    | nil => exact hnil
    | cons c s =>
      cases hm : matchLength delims (c::s) with
      | none => exact hcons c s hm (ih s.length (by simp) s rfl)
      | some k =>
        have hpos := hsep.match_pos hm
        refine hmatch (c::s) k hm (ih _ ?_ _ rfl)
        rw [List.length_drop,List.length_cons]
        omega

lemma Separated.removeAll_sublist (s : List α) : (removeAll delims s).Sublist s := by
  induction s using hsep.scan_induction with
  | hnil => exact List.Sublist.refl _
  | hcons c s hm ih =>
    rw [removeAll_cons hm]
    exact ih.cons_cons c
  | hmatch s n hm ih =>
    rw [removeAll_match hm (hsep.match_pos hm)]
    exact ih.trans (List.drop_sublist n s)

/-- A match removes a symbol of its header, whatever symbols of headers are counted. -/
theorem Separated.countP_removeAll_lt (hp : ∀ d ∈ delims, ∃ c ∈ d.1, p c = true)
    (h : occurs delims s = true) : (removeAll delims s).countP p < s.countP p := by
  induction s using hsep.scan_induction with
  | hnil => cases h
  | hcons c s hm ih =>
    rw [occurs_cons,hm,Option.isSome_none,Bool.false_or] at h
    rw [removeAll_cons hm,List.countP_cons,List.countP_cons]
    have hless := ih h
    omega
  | hmatch s n hm ih =>
    obtain ⟨d,hd,k,hheader,-,hn,-⟩ := matchLength_some hm
    obtain ⟨c,hc,hpc⟩ := hp d hd
    have htake : d.1 <+: s.take n := by
      refine List.prefix_of_prefix_length_le hheader (List.take_prefix n s) ?_
      rw [List.length_take]
      have hfirst := hheader.length_le
      omega
    have hremoved : 0 < (s.take n).countP p := List.countP_pos_iff.mpr ⟨c,htake.subset hc,hpc⟩
    have hleft : (removeAll delims (s.drop n)).countP p ≤ (s.drop n).countP p :=
      (hsep.removeAll_sublist (s.drop n)).countP_le
    have hsplit : s.countP p = (s.take n).countP p+(s.drop n).countP p := by
      rw [← List.countP_append,List.take_append_drop]
    rw [removeAll_match hm (hsep.match_pos hm)]
    omega

/-- Text behind a separator does not matter for a match before it, unless a footer of a header
before it comes behind it. -/
theorem Separated.matchLength_append (h : ∀ d ∈ delims, d.1 <+: x → ¬d.2 <:+: tail) :
    matchLength delims (x++sep::tail) = matchLength delims x := by
  refine findSome?_congr fun d hd => ?_
  have hiff : d.1 <+: x++sep::tail ↔ d.1 <+: x := prefix_append_sep (hsep.header d hd).2
  by_cases hheader : d.1 <+: x
  · rw [if_pos hheader,if_pos (hiff.mpr hheader), List.drop_append_of_le_length hheader.length_le,
      findIndex_append_sep (hsep.footer d hd).1 (hsep.footer d hd).2 (h d hd hheader)]
  · rw [if_neg hheader,if_neg (fun hm => hheader (hiff.mp hm))]

/-- Texts before a separator and behind it are cleaned on their own, unless a header before it
has a footer behind it. -/
theorem Separated.removeAll_append (h : ∀ d ∈ delims, d.1 <:+: x → ¬d.2 <:+: tail) :
    removeAll delims (x++sep::tail) = removeAll delims x++sep::removeAll delims tail := by
  induction x using hsep.scan_induction with
  | hnil =>
    have hnone : matchLength delims (sep::tail) = none := by
      rw [matchLength_eq_none]
      intro d hd hheader
      have hempty : d.1 <+: [] := (prefix_append_sep (hsep.header d hd).2).mp hheader
      exact absurd (List.prefix_nil.mp hempty) (hsep.header d hd).1
    exact removeAll_cons hnone
  | hcons c x hm ih =>
    have hsame := hsep.matchLength_append fun d hd hheader => h d hd hheader.isInfix
    have hrest := ih fun d hd hheader => h d hd (hheader.trans (List.suffix_cons c x).isInfix)
    rw [List.cons_append] at hsame ⊢
    rw [removeAll_cons (hsame.trans hm),removeAll_cons hm,hrest,List.cons_append]
  | hmatch x n hm ih =>
    have hsame := hsep.matchLength_append fun d hd hheader => h d hd hheader.isInfix
    have hrest := ih fun d hd hheader => h d hd (hheader.trans (List.drop_suffix n x).isInfix)
    have hpos := hsep.match_pos hm
    rw [removeAll_match (hsame.trans hm) hpos,List.drop_append_of_le_length (matchLength_le hm),
      hrest,removeAll_match hm hpos]

lemma Separated.removeAll_sep (tail : List α) :
    removeAll delims (sep::tail) = sep::removeAll delims tail :=
  hsep.removeAll_append (x := []) fun d hd hheader =>
    absurd (List.infix_nil.mp hheader) (hsep.header d hd).1

/-- Cleaning a text up to a separator and on: either the part behind it is cleaned on its own,
and then symbols of a header were removed or no header before it has a footer behind it; or a
match that starts before it ends behind it, and the cleaning goes on there. -/
theorem Separated.removeAll_through (hp : ∀ d ∈ delims, ∃ c ∈ d.1, p c = true) (x tail : List α) :
    (∃ x', removeAll delims (x++sep::tail) = x'++sep::removeAll delims tail ∧ x'.countP p ≤ x.countP p ∧
      (x'.countP p < x.countP p ∨ ∀ d ∈ delims, d.1 <:+: x → ¬d.2 <:+: tail)) ∨
    ∃ x', ∃ d ∈ delims, ∃ u y, d.1 <:+: x ∧ tail = u++(d.2++y) ∧
      removeAll delims (x++sep::tail) = x'++removeAll delims y := by
  induction hn : x.length using Nat.strong_induction_on generalizing x with
  | _ n ih =>
    subst hn
    cases x with
    | nil =>
      refine .inl ⟨[],?_,le_rfl,.inr ?_⟩
      · exact hsep.removeAll_sep tail
      · exact fun d hd hheader => absurd (List.infix_nil.mp hheader) (hsep.header d hd).1
    | cons c x =>
      cases hm : matchLength delims (c::x++sep::tail) with
      | none =>
        have hout : removeAll delims (c::x++sep::tail) = c::removeAll delims (x++sep::tail) := removeAll_cons hm
        rw [hout]
        rcases ih x.length (by simp) x rfl with ⟨x',hx',hle,hcase⟩ | ⟨x',d,hd,u,y,hin,ht,hx'⟩
        · refine .inl ⟨c::x',by rw [hx',List.cons_append],?_,?_⟩
          · rw [List.countP_cons,List.countP_cons]
            omega
          · rcases hcase with hless | hnone
            · left
              rw [List.countP_cons,List.countP_cons]
              omega
            · right
              intro d hd hheader hfooter
              rcases List.infix_cons_iff.mp hheader with hfirst | hlater
              · -- the header starts here and its footer comes later, so there was a match
                have hwhole : d.1 <+: c::x++sep::tail := hfirst.trans (List.prefix_append _ _)
                refine matchLength_eq_none.mp hm d hd hwhole (hfooter.trans ?_)
                rw [List.drop_append_of_le_length hfirst.length_le]
                exact ((List.suffix_cons sep tail).trans (List.suffix_append _ _)).isInfix
              · exact hnone d hd hlater hfooter
        · exact .inr ⟨c::x',d,hd,u,y,hin.trans (List.suffix_cons c x).isInfix,ht,
            by rw [hx',List.cons_append]⟩
      | some n =>
        have hpos := hsep.match_pos hm
        rw [removeAll_match hm hpos]
        obtain ⟨d,hd,k,hheader,hfooter,hnd,hlength⟩ := matchLength_some hm
        have hfirst : d.1 <+: c::x := (prefix_append_sep (hsep.header d hd).2).mp hheader
        by_cases hinside : n ≤ (c::x).length
        · -- the match ends before the separator
          obtain ⟨b,hb,hpb⟩ := hp d hd
          have htake : d.1 <+: (c::x).take n := by
            refine List.prefix_of_prefix_length_le hfirst (List.take_prefix n _) ?_
            rw [List.length_take]
            omega
          have hremoved : 0 < ((c::x).take n).countP p := List.countP_pos_iff.mpr ⟨b,htake.subset hb,hpb⟩
          have hsplit : (c::x).countP p = ((c::x).take n).countP p+((c::x).drop n).countP p := by
            rw [← List.countP_append,List.take_append_drop]
          rw [List.drop_append_of_le_length hinside]
          have hshort : ((c::x).drop n).length < (c::x).length := by
            rw [List.length_drop]
            omega
          rcases ih _ hshort _ rfl with ⟨x',hx',hle,-⟩ | ⟨x',d',hd',u,y,hin,ht,hx'⟩
          · exact .inl ⟨x',hx',by omega,.inl (by omega)⟩
          · exact .inr ⟨x',d',hd',u,y,hin.trans (List.drop_suffix n _).isInfix,ht,hx'⟩
        · -- the footer lies behind the separator
          refine .inr ⟨[],d,hd,?_⟩
          obtain ⟨y,hy⟩ := hfooter
          have hwhole : (c::x++sep::tail).take (d.1.length+k)++(d.2++y) = c::x++sep::tail := by
            rw [hy,List.take_append_drop]
          rcases split_at_sep (hsep.footer d hd).2 hwhole with ⟨w,hleft,-⟩ | ⟨u,-,ht⟩
          · have hlong := congrArg List.length hleft
            rw [List.length_append,List.length_append,List.length_take] at hlong
            omega
          · refine ⟨u,y,hfirst.isInfix,ht,?_⟩
            have hdrop : (c::x++sep::tail).drop n = y := by
              rw [hnd,← List.drop_drop,← hy,List.drop_left]
            rw [hdrop,List.nil_append]

end Removal

end Memora.TextPatterns
