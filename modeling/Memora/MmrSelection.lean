import Memora.BinaryRounding
import Memora.RerankBoundary

/-! `apply_mmr` in the arithmetic of doubles. A turn looks for a score above -1, and one that finds
none ends the selection: so it goes where relevance has no weight and every candidate left has the
tokens of a selected one. -/
namespace Memora.Rerank
open Selections BinaryRounding

/-- The arithmetic of doubles that do not overflow. -/
def RerankEnv.doubles (base : RerankEnv ℚ) : RerankEnv ℚ :=
  { base with
    lit := toDouble
    neg := fun x => -x
    add := fun x y => toDouble (x+y)
    sub := fun x y => toDouble (x - y)
    mul := fun x y => toDouble (x * y)
    div := fun x y => toDouble (x / y)
    lt := fun x y => x < y
    eq := fun x y => x = y }

variable {base : RerankEnv ℚ}

/-! ### The loop -/

section Loop

variable {score : Candidate → ℚ} {best : Option ℕ} {bestMmr : ℚ} {i j : ℕ}
  {selected candidates : List Candidate}

lemma bestIndex_found
    (h : bestIndex base.doubles score i best bestMmr candidates = some j) :
    best = some j ∨ ∃ n c, j = i+n ∧ candidates[n]? = some c ∧ bestMmr < score c ∧
      ∀ d ∈ candidates.take n, score d < score c := by
  induction candidates generalizing i best bestMmr with
  | nil => exact .inl h
  | cons c candidates ih =>
    rw [bestIndex] at h
    split at h
    · rename_i hc
      have hbetter : bestMmr < score c := of_decide_eq_true hc
      rcases ih h with hold | ⟨n,d,rfl,hd,hlt,hmost⟩
      · exact .inr ⟨0,c,(Option.some.inj hold).symm,rfl,hbetter,by simp⟩
      · refine .inr ⟨n+1,d,by omega,by simpa using hd,hbetter.trans hlt,?_⟩
        rw [List.take_succ_cons,List.forall_mem_cons]
        exact ⟨hlt,hmost⟩
    · rename_i hc
      have hworse : score c ≤ bestMmr := not_lt.mp fun hlt => hc (decide_eq_true hlt)
      rcases ih h with hold | ⟨n,d,rfl,hd,hlt,hmost⟩
      · exact .inl hold
      · refine .inr ⟨n+1,d,by omega,by simpa using hd,hlt,?_⟩
        rw [List.take_succ_cons,List.forall_mem_cons]
        exact ⟨hworse.trans_lt hlt,hmost⟩

lemma bestIndex_isSome (h : best.isSome = true ∨ ∃ c ∈ candidates, bestMmr < score c) :
    (bestIndex base.doubles score i best bestMmr candidates).isSome = true := by
  induction candidates generalizing i best bestMmr with
  | nil => simpa [bestIndex] using h
  | cons c candidates ih =>
    rw [bestIndex]
    split
    · exact ih (.inl rfl)
    · rename_i hc
      refine ih (h.imp id ?_)
      rintro ⟨d,hd,hlt⟩
      rcases List.mem_cons.mp hd with rfl | hd
      · exact absurd (decide_eq_true hlt) hc
      · exact ⟨d,hd,hlt⟩

variable {mmrLambda : ℚ} {scores : Scores ℚ} {k : ℤ}

lemma floor_eq : base.doubles.lit (-1) = -1 := by
  change toDouble (-1) = -1
  rw [toDouble_neg,toDouble_one]

lemma mmrPick_some (hsome : selected ≠ [])
    (h : mmrPick base.doubles mmrLambda scores selected candidates = some i) :
    ∃ c, candidates[i]? = some c ∧ -1 < mmrScore base.doubles mmrLambda scores selected c ∧
      ∀ d ∈ candidates.take i, mmrScore base.doubles mmrLambda scores selected d <
        mmrScore base.doubles mmrLambda scores selected c := by
  rw [mmrPick,if_neg hsome,floor_eq] at h
  rcases bestIndex_found h with hnone | ⟨n,c,rfl,hc,hlt,hmost⟩
  · cases hnone
  · rw [Nat.zero_add]
    exact ⟨c,hc,hlt,hmost⟩

lemma mmrPick_none (hsome : selected ≠ [])
    (h : mmrPick base.doubles mmrLambda scores selected candidates = none) :
    ∀ c ∈ candidates, mmrScore base.doubles mmrLambda scores selected c ≤ -1 := by
  rw [mmrPick,if_neg hsome,floor_eq] at h
  intro c hc
  by_contra hlt
  have hfound : (bestIndex base.doubles (mmrScore base.doubles mmrLambda scores selected) 0 none (-1)
      candidates).isSome = true := bestIndex_isSome (.inr ⟨c,hc,not_le.mp hlt⟩)
  rw [h] at hfound
  cases hfound

variable (base mmrLambda scores) in
/-- What each turn keeps is kept to the end, which comes with k results, with no candidate left or
with none above the floor. -/
theorem mmrLoop_rule {P : List Candidate → List Candidate → Prop} {turns : ℕ}
    (hsome : selected ≠ [])
    (hturns : candidates.length ≤ turns) (h : P selected candidates)
    (hstep : ∀ selected candidates i c, selected ≠ [] → selected.length < k → P selected candidates →
      candidates[i]? = some c → -1 < mmrScore base.doubles mmrLambda scores selected c →
      (∀ d ∈ candidates.take i, mmrScore base.doubles mmrLambda scores selected d <
        mmrScore base.doubles mmrLambda scores selected c) →
      P (selected++[c]) (candidates.eraseIdx i)) :
    ∃ out rest, mmrLoop base.doubles mmrLambda scores k turns selected candidates = out ∧
    P out rest ∧
      out ≠ [] ∧ (k ≤ out.length ∨ rest = [] ∨
        ∀ c ∈ rest, mmrScore base.doubles mmrLambda scores out c ≤ -1) := by
  induction turns generalizing selected candidates with
  | zero =>
    obtain rfl := List.eq_nil_of_length_eq_zero (Nat.le_zero.mp hturns)
    exact ⟨selected,[],rfl,h,hsome,.inr (.inl rfl)⟩
  | succ turns ih =>
    rw [mmrLoop]
    split
    · rename_i hend
      exact ⟨selected,candidates,rfl,h,hsome,hend.symm.imp id .inl⟩
    rename_i hgoing
    cases hpick : mmrPick base.doubles mmrLambda scores selected candidates with
    | none => exact ⟨selected,candidates,rfl,h,hsome,.inr (.inr (mmrPick_none hsome hpick))⟩
    | some i =>
      obtain ⟨c,hc,habove,hmost⟩ := mmrPick_some hsome hpick
      have hleft : (candidates.eraseIdx i).length ≤ turns := by
        rw [List.length_eraseIdx_of_lt (List.getElem?_eq_some_iff.mp hc).1]
        omega
      simp only [hc]
      simp only [not_or,not_le] at hgoing
      exact ih (by simp) hleft (hstep selected candidates i c hsome hgoing.2 h hc habove hmost)

lemma mmrLoop_first (hk : 0 < k) (turns : ℕ) (c : Candidate) :
    mmrLoop base.doubles mmrLambda scores k (turns+1) [] (c::candidates) =
      mmrLoop base.doubles mmrLambda scores k turns [c] candidates := by
  rw [mmrLoop,if_neg (by simpa using hk)]
  rfl

end Loop

/-! ### Similarity -/

section Similarity

variable (base) (a : Candidate)

def tokens : Finset (List Char) := tokenSet base.doubles a.content

variable {base a} {s t : Finset (List Char)}

lemma tokens_nonempty : (tokens base a).Nonempty := by
  unfold tokens tokenSet
  dsimp only
  split
  · exact Finset.singleton_nonempty _
  · rename_i h
    exact Finset.nonempty_of_ne_empty h

lemma jaccard_eq (h : s.Nonempty) : jaccard base.doubles s t =
    toDouble (toDouble (s ∩ t).card / toDouble (s ∪ t).card) := by
  have hpos : 1 ≤ (s ∪ t).card := (h.mono Finset.subset_union_left).card_pos
  unfold jaccard
  rw [max_eq_left (by exact_mod_cast hpos)]
  rfl

lemma union_pos (h : s.Nonempty) : 0 < toDouble (s ∪ t).card := by
  have hpos : 1 ≤ (s ∪ t).card := (h.mono Finset.subset_union_left).card_pos
  have hround := toDouble_mono (show (1 : ℚ) ≤ (s ∪ t).card by exact_mod_cast hpos)
  rw [toDouble_one] at hround
  linarith

lemma jaccard_nonneg (h : s.Nonempty) : 0 ≤ jaccard base.doubles s t := by
  rw [jaccard_eq h]
  exact toDouble_nonneg (div_nonneg (toDouble_nonneg (Nat.cast_nonneg _)) (union_pos h).le)

lemma jaccard_le_one (h : s.Nonempty) : jaccard base.doubles s t ≤ 1 := by
  have hcard : (s ∩ t).card ≤ (s ∪ t).card :=
    Finset.card_le_card (Finset.inter_subset_left.trans Finset.subset_union_left)
  rw [jaccard_eq h,← toDouble_one]
  refine toDouble_mono ?_
  rw [div_le_one (union_pos h)]
  exact toDouble_mono (by exact_mod_cast hcard)

lemma jaccard_self (h : s.Nonempty) : jaccard base.doubles s s = 1 := by
  have hpos := union_pos (t := s) h
  rw [jaccard_eq h,Finset.inter_self,Finset.union_self] at *
  rw [div_self hpos.ne',toDouble_one]

variable (base) in
/-- Two token sets of a possible size are wholly similar only where they are the same. -/
theorem jaccard_lt_one (h : s.Nonempty) (hne : s ≠ t) (hs : s.card < 2 ^ 52)
    (ht : t.card < 2 ^ 52) :
    jaccard base.doubles s t < 1 := by
  have hcard : (s ∩ t).card < (s ∪ t).card := by
    refine Finset.card_lt_card ((Finset.inter_subset_left.trans Finset.subset_union_left).ssubset_of_ne ?_)
    exact fun heq => hne (inf_eq_sup.mp heq)
  have hunion : (s ∪ t).card < 2 ^ 53 := by
    have hle := Finset.card_union_le s t
    omega
  have hexact : ∀ n : ℕ, n < 2 ^ 53 → toDouble n = n := by
    intro n hn
    have hround := toDouble_intCast (n := n) (by rw [Nat.abs_cast]; exact_mod_cast hn)
    exact_mod_cast hround
  rw [jaccard_eq h,hexact _ hunion,hexact _ (hcard.trans hunion)]
  exact toDouble_fraction_lt hcard hunion

variable (base) in
lemma maxOf_greatest (x : ℚ) (l : List ℚ) :
    maxOf base.doubles x l ∈ x::l ∧ ∀ y ∈ x::l, y ≤ maxOf base.doubles x l := by
  induction l generalizing x with
  | nil => exact ⟨List.mem_singleton_self x,by simp [maxOf]⟩
  | cons y l ih =>
    rw [maxOf]
    split
    · rename_i hlt
      have hxy : x < y := of_decide_eq_true hlt
      obtain ⟨hmem,hle⟩ := ih y
      refine ⟨List.mem_cons_of_mem _ hmem,?_⟩
      rw [List.forall_mem_cons]
      exact ⟨hxy.le.trans (hle y List.mem_cons_self),hle⟩
    · rename_i hnot
      have hyx : y ≤ x := not_lt.mp fun hlt => hnot (decide_eq_true hlt)
      obtain ⟨hmem,hle⟩ := ih x
      rw [List.forall_mem_cons] at hle
      refine ⟨?_,?_⟩
      · rcases List.mem_cons.mp hmem with heq | hmem
        · rw [heq]
          exact List.mem_cons_self
        · exact List.mem_cons_of_mem _ (List.mem_cons_of_mem _ hmem)
      · rw [List.forall_mem_cons,List.forall_mem_cons]
        exact ⟨hle.1,hyx.trans hle.1,hle.2⟩

variable {selected : List Candidate} {mmrLambda : ℚ} {scores : Scores ℚ}

variable (base mmrLambda scores) in
theorem mmrScore_eq (hsome : selected ≠ []) (c : Candidate) : ∃ m,
    (∃ d ∈ selected, m = jaccard base.doubles (tokens base c) (tokens base d)) ∧
    (∀ d ∈ selected, jaccard base.doubles (tokens base c) (tokens base d) ≤ m) ∧
    ∀ b, tokens base b = tokens base c → mmrScore base.doubles mmrLambda scores selected b =
      toDouble (toDouble (mmrLambda * scores b.object) - toDouble (toDouble (1 - mmrLambda) * m)) := by
  obtain ⟨d,rest,rfl⟩ := List.exists_cons_of_ne_nil hsome
  have hgreatest := maxOf_greatest base
    (jaccard base.doubles (tokens base c) (tokens base d))
    (rest.map fun s => jaccard base.doubles (tokens base c) (tokens base s))
  rw [← List.map_cons (f := fun s => jaccard base.doubles (tokens base c) (tokens base s))]
    at hgreatest
  refine ⟨maxOf base.doubles (jaccard base.doubles (tokens base c) (tokens base d))
    (rest.map fun s => jaccard base.doubles (tokens base c) (tokens base s)),?_,?_,?_⟩
  · obtain ⟨e,he,heq⟩ := List.mem_map.mp hgreatest.1
    exact ⟨e,he,heq.symm⟩
  · exact fun e he => hgreatest.2 _ (List.mem_map.mpr ⟨e,he,rfl⟩)
  · intro b hb
    change toDouble (_ - toDouble (toDouble (toDouble 1 - mmrLambda) *
      maxOf base.doubles (jaccard base.doubles (tokens base b) (tokens base d)) (rest.map fun s =>
        jaccard base.doubles (tokens base b) (tokens base s)))) = _
    rw [toDouble_one,hb]
    rfl

end Similarity

/-! ### Relevance -/

section Relevance

variable (mmrLambda : ℚ) (score : ℚ)

/-- A relevance that is lost when one is taken from it. -/
def Vanishes : Prop := toDouble (toDouble (mmrLambda * score) - 1) = -1

instance decidableVanishes : Decidable (Vanishes mmrLambda score) :=
  inferInstanceAs (Decidable (_ = _))

variable {mmrLambda score} {scores : Scores ℚ} {selected : List Candidate} {b c : Candidate}

lemma floor_le (hpos : 0 ≤ mmrLambda) (hscore : 0 ≤ score) :
    -1 ≤ toDouble (toDouble (mmrLambda * score) - 1) := by
  have hrelevance := toDouble_nonneg (mul_nonneg hpos hscore)
  have hround := toDouble_mono (show -1 ≤ toDouble (mmrLambda * score) - 1 by linarith)
  rwa [toDouble_neg,toDouble_one] at hround

lemma Vanishes.mono {less : ℚ} (h : Vanishes mmrLambda score) (hpos : 0 ≤ mmrLambda)
    (hless : 0 ≤ less) (hle : less ≤ score) : Vanishes mmrLambda less := by
  refine le_antisymm ?_ (floor_le hpos hless)
  rw [← show toDouble (toDouble (mmrLambda * score) - 1) = -1 from h]
  exact toDouble_mono (sub_le_sub_right (toDouble_mono (mul_le_mul_of_nonneg_left hle hpos)) 1)

lemma mmrScore_mono (hsome : selected ≠ []) (hpos : 0 ≤ mmrLambda)
    (hsame : tokens base b = tokens base c) (hle : scores c.object ≤ scores b.object) :
    mmrScore base.doubles mmrLambda scores selected c ≤
      mmrScore base.doubles mmrLambda scores selected b := by
  obtain ⟨m,-,-,heq⟩ := mmrScore_eq base mmrLambda scores hsome c
  rw [heq c rfl,heq b hsame]
  exact toDouble_mono (sub_le_sub_right (toDouble_mono (mul_le_mul_of_nonneg_left hle hpos)) _)

variable (hsome : selected ≠ []) (hlambda : 0 ≤ mmrLambda ∧ mmrLambda ≤ 1)
    (hscore : 0 ≤ scores c.object)

section Above
include hsome hlambda hscore

lemma above_of_penalty {bound : ℚ} (hlt : toDouble bound < 1) (hpenalty : ∀ d ∈ selected,
      toDouble (1 - mmrLambda) * jaccard base.doubles (tokens base c) (tokens base d) ≤ toDouble bound) :
    -1 < mmrScore base.doubles mmrLambda scores selected c := by
  obtain ⟨m,⟨d,hd,rfl⟩,-,heq⟩ := mmrScore_eq base mmrLambda scores hsome c
  rw [heq c rfl]
  have hround := toDouble_mono (hpenalty d hd)
  rw [toDouble_toDouble] at hround
  have hrelevance := toDouble_nonneg (mul_nonneg hlambda.1 hscore)
  have hfinal := toDouble_mono (show -toDouble bound ≤ toDouble (mmrLambda * scores c.object) -
    toDouble (toDouble (1 - mmrLambda) * jaccard base.doubles (tokens base c) (tokens base d)) by
  linarith)
  rw [toDouble_neg,toDouble_toDouble] at hfinal
  linarith

lemma weighted_above (hweight : toDouble (1 - mmrLambda) < 1) :
    -1 < mmrScore base.doubles mmrLambda scores selected c :=
  above_of_penalty hsome hlambda hscore hweight fun _ _ =>
    mul_le_of_le_one_right (toDouble_nonneg (sub_nonneg.mpr hlambda.2))
    (jaccard_le_one tokens_nonempty)

omit hsome hscore in
lemma weight_le_one : toDouble (1 - mmrLambda) ≤ 1 := by
  have hround := toDouble_mono (show 1 - mmrLambda ≤ 1 by linarith [hlambda.1])
  rwa [toDouble_one] at hround

lemma kept_above (h : ¬ Vanishes mmrLambda (scores c.object)) :
    -1 < mmrScore base.doubles mmrLambda scores selected c := by
  obtain ⟨m,⟨d,-,rfl⟩,-,heq⟩ := mmrScore_eq base mmrLambda scores hsome c
  rw [heq c rfl]
  have hpenalty : toDouble (toDouble (1 - mmrLambda) *
      jaccard base.doubles (tokens base c) (tokens base d)) ≤ 1 := by
    rw [← toDouble_one]
    refine toDouble_mono ?_
    rw [toDouble_one]
    exact mul_le_one₀ (weight_le_one hlambda) (jaccard_nonneg tokens_nonempty) (jaccard_le_one tokens_nonempty)
  exact ((floor_le hlambda.1 hscore).lt_of_ne' h).trans_le
    (toDouble_mono (sub_le_sub_left hpenalty _))

lemma new_above (hnew : tokens base c ∉ selected.map (tokens base))
    (hsize : (tokens base c).card < 2 ^ 52) (hsizes : ∀ d ∈ selected, (tokens base d).card < 2 ^ 52) :
    -1 < mmrScore base.doubles mmrLambda scores selected c := by
  obtain ⟨m,⟨d,hd,hm⟩,hmost,-⟩ := mmrScore_eq base mmrLambda scores hsome c
  have hne : tokens base c ≠ tokens base d := fun h => hnew (h ▸ List.mem_map_of_mem hd)
  have hless := jaccard_lt_one base tokens_nonempty hne hsize (hsizes d hd)
  obtain ⟨q,hq⟩ : ∃ q, jaccard base.doubles (tokens base c) (tokens base d) = toDouble q :=
    ⟨_,jaccard_eq tokens_nonempty⟩
  refine above_of_penalty hsome hlambda hscore (hq ▸ hless : toDouble q < 1) fun e he => ?_
  calc toDouble (1 - mmrLambda) * jaccard base.doubles (tokens base c) (tokens base e)
      ≤ jaccard base.doubles (tokens base c) (tokens base e) :=
        mul_le_of_le_one_left (jaccard_nonneg tokens_nonempty) (weight_le_one hlambda)
    _ ≤ m := hmost e he
    _ = toDouble q := hm.trans hq

end Above

include hsome in
lemma lost_floor (hone : toDouble (1 - mmrLambda) = 1) (h : Vanishes mmrLambda (scores c.object))
    (hold : tokens base c ∈ selected.map (tokens base)) :
    mmrScore base.doubles mmrLambda scores selected c = -1 := by
  obtain ⟨m,⟨d,-,hd⟩,hmost,heq⟩ := mmrScore_eq base mmrLambda scores hsome c
  obtain ⟨e,he,hsame⟩ := List.mem_map.mp hold
  have hm : m = 1 := by
    refine le_antisymm (hd ▸ jaccard_le_one tokens_nonempty) ?_
    have hself := hmost e he
    rwa [hsame,jaccard_self tokens_nonempty] at hself
  rw [heq c rfl,hone,hm,mul_one,toDouble_one]
  exact h

end Relevance

/-! ### Results -/

/-- A reranked list has `min(k, n)` results, each another one of the input, and begins with the
first. -/
structure Complete (results : List Candidate) (k : ℤ) (out : List Candidate) : Prop where
  count : (out.length : ℤ) = min k results.length
  distinct : out.Subperm results
  first : ∀ a, out.head? = some a → results.head? = some a

variable (base) (results : List Candidate) (scores : Scores ℚ) (k : ℤ) (mmrLambda : ℚ)

def counting : List Candidate := results.filter fun a => ¬ Vanishes mmrLambda (scores a.object)
def vanishing : List Candidate := results.filter fun a => Vanishes mmrLambda (scores a.object)

/-- How many results can be told apart where relevance has no weight: those whose score counts
still, and one for each text that none of them has. -/
def toldApart : ℕ :=
  (counting results scores mmrLambda).length +
    (((vanishing results scores mmrLambda).map (tokens base)).toFinset \
      ((counting results scores mmrLambda).map (tokens base)).toFinset).card

/-- Everything fits, or relevance has a weight, as `1 - mmr_lambda` is computed, or enough results
can be told apart. -/
def Fills : Prop :=
  0 ≤ k ∧ ((results.length : ℤ) ≤ k ∨ toDouble (1 - mmrLambda) < 1 ∨
    k ≤ toldApart base results scores mmrLambda)

variable {base results scores k mmrLambda} {out selected candidates : List Candidate}

lemma length_split (scores : Scores ℚ) (mmrLambda : ℚ) (l : List Candidate) :
    l.length = (counting l scores mmrLambda).length+(vanishing l scores mmrLambda).length := by
  have hsplit := List.length_eq_length_filter_add
    (l := l) fun a => decide (¬ Vanishes mmrLambda (scores a.object))
  simpa only [counting,vanishing,decide_not,Bool.not_not] using hsplit

lemma mem_counting {a : Candidate} :
    a ∈ counting results scores mmrLambda ↔ a ∈ results ∧
    ¬ Vanishes mmrLambda (scores a.object) := by
  rw [counting,List.mem_filter,decide_eq_true_eq]

lemma mem_vanishing {a : Candidate} :
    a ∈ vanishing results scores mmrLambda ↔ a ∈ results ∧
    Vanishes mmrLambda (scores a.object) := by
  rw [vanishing,List.mem_filter,decide_eq_true_eq]

variable (base scores mmrLambda) in
/-- A selection that took all whose score counts, and each text, tells enough apart. -/
lemma toldApart_le {rest : List Candidate} (hperm : results.Perm (out++rest))
    (hcounting : ∀ a ∈ rest, Vanishes mmrLambda (scores a.object))
    (hcovered : ∀ a ∈ results, tokens base a ∈ out.map (tokens base)) :
    toldApart base results scores mmrLambda ≤ out.length := by
  have hsame : (counting results scores mmrLambda).length = (counting out scores mmrLambda).length := by
    have hrest : counting rest scores mmrLambda = [] := by
      rw [counting,List.filter_eq_nil_iff]
      exact fun a ha => by simpa using hcounting a ha
    have hfilter := (hperm.filter fun a => decide (¬ Vanishes mmrLambda (scores a.object))).length_eq
    rw [List.filter_append] at hfilter
    change (counting results scores mmrLambda).length =
      (counting out scores mmrLambda++counting rest scores mmrLambda).length at hfilter
    rwa [hrest,List.append_nil] at hfilter
  have hsubset : ((vanishing results scores mmrLambda).map (tokens base)).toFinset \
      ((counting results scores mmrLambda).map (tokens base)).toFinset ⊆
      ((vanishing out scores mmrLambda).map (tokens base)).toFinset := by
    intro t ht
    simp only [Finset.mem_sdiff,List.mem_toFinset,List.mem_map] at ht
    obtain ⟨⟨a,ha,rfl⟩,hnone⟩ := ht
    obtain ⟨b,hb,hsame⟩ := List.mem_map.mp (hcovered a (mem_vanishing.mp ha).1)
    have hresult := hperm.symm.subset (List.mem_append_left rest hb)
    refine List.mem_toFinset.mpr (List.mem_map.mpr ⟨b,mem_vanishing.mpr ⟨hb,?_⟩,hsame⟩)
    by_contra hcounts
    exact hnone ⟨b,mem_counting.mpr ⟨hresult,hcounts⟩,hsame⟩
  have hcard := (Finset.card_le_card hsubset).trans (List.toFinset_card_le _)
  rw [List.length_map] at hcard
  rw [toldApart,hsame,length_split scores mmrLambda out]
  omega

/-- A part of the results that has no text twice among the vanishing, and those only where no
result counts, is no larger than what can be told apart. -/
lemma le_toldApart (hpart : out.Subperm results)
    (hlone : ∀ a ∈ out, Vanishes mmrLambda (scores a.object) →
      ∀ b ∈ results, tokens base b = tokens base a → Vanishes mmrLambda (scores b.object))
    (hnodup : ((vanishing out scores mmrLambda).map (tokens base)).Nodup) :
    out.length ≤ toldApart base results scores mmrLambda := by
  have hcounting : (counting out scores mmrLambda).length ≤ (counting results scores mmrLambda).length :=
    (hpart.filter _).length_le
  have hsubset : ((vanishing out scores mmrLambda).map (tokens base)).toFinset ⊆
      ((vanishing results scores mmrLambda).map (tokens base)).toFinset \
        ((counting results scores mmrLambda).map (tokens base)).toFinset := by
    intro t ht
    obtain ⟨a,ha,rfl⟩ := List.mem_map.mp (List.mem_toFinset.mp ht)
    obtain ⟨hout,hvanishes⟩ := mem_vanishing.mp ha
    simp only [Finset.mem_sdiff,List.mem_toFinset,List.mem_map]
    refine ⟨⟨a,mem_vanishing.mpr ⟨hpart.subset hout,hvanishes⟩,rfl⟩,?_⟩
    rintro ⟨b,hb,hsame⟩
    obtain ⟨hresult,hcounts⟩ := mem_counting.mp hb
    exact hcounts (hlone a hout hvanishes b hresult hsame)
  have hcard := Finset.card_le_card hsubset
  rw [List.toFinset_card_of_nodup hnodup,List.length_map] at hcard
  rw [toldApart,length_split scores mmrLambda out]
  omega

variable (base scores k mmrLambda results)

/-- What is selected and what is left, while the list grows. -/
structure Growing (selected candidates : List Candidate) : Prop where
  perm : results.Perm (selected++candidates)
  first : ∀ a, selected.head? = some a → results.head? = some a
  most : (selected.length : ℤ) ≤ k

/-- In a list that is sorted by score, a text is taken first where its score counts most. -/
structure Told (selected candidates : List Candidate) :
    Prop extends Growing results k selected candidates where
  sorted : candidates.Pairwise fun a b => scores b.object ≤ scores a.object
  lone : ∀ a ∈ selected, Vanishes mmrLambda (scores a.object) →
    ∀ b ∈ results, tokens base b = tokens base a → Vanishes mmrLambda (scores b.object)
  nodup : ((vanishing selected scores mmrLambda).map (tokens base)).Nodup

variable {base scores k mmrLambda results} {c : Candidate} {i : ℕ}

lemma Growing.step (h : Growing results k selected candidates) (hsome : selected ≠ [])
    (hroom : selected.length < k) (hc : candidates[i]? = some c) :
    Growing results k (selected++[c]) (candidates.eraseIdx i) where
  perm := h.perm.trans (append_eraseIdx_perm selected hc).symm
  first := by
    rw [List.head?_append_of_ne_nil _ hsome]
    exact h.first
  most := by
    rw [List.length_append,List.length_singleton]
    omega

lemma Told.step (h : Told base results scores k mmrLambda selected candidates)
    (hsome : selected ≠ [])
    (hpos : 0 ≤ mmrLambda) (hone : toDouble (1 - mmrLambda) = 1)
    (hscores : ∀ a ∈ results, 0 ≤ scores a.object)
    (hroom : selected.length < k) (hc : candidates[i]? = some c)
    (habove : -1 < mmrScore base.doubles mmrLambda scores selected c)
    (hmost : ∀ d ∈ candidates.take i, mmrScore base.doubles mmrLambda scores selected d <
      mmrScore base.doubles mmrLambda scores selected c) :
    Told base results scores k mmrLambda (selected++[c]) (candidates.eraseIdx i) := by
  have hnew : Vanishes mmrLambda (scores c.object) → tokens base c ∉ selected.map (tokens base) :=
    fun hvanishes hold => habove.ne' (lost_floor hsome hone hvanishes hold)
  refine { toGrowing := h.toGrowing.step hsome hroom hc, sorted := ?_, lone := ?_, nodup := ?_ }
  · exact h.sorted.sublist (List.eraseIdx_sublist candidates i)
  · intro a ha hvanishes b hb hsame
    rcases List.mem_append.mp ha with ha | ha
    · exact h.lone a ha hvanishes b hb hsame
    obtain rfl := List.mem_singleton.mp ha
    by_contra hcounts
    have hmore : scores a.object < scores b.object := by
      by_contra hle
      exact hcounts (hvanishes.mono hpos (hscores b hb) (not_lt.mp hle))
    rcases List.mem_append.mp (h.perm.subset hb) with hold | hleft
    · exact hnew hvanishes (hsame ▸ List.mem_map_of_mem hold)
    -- among the candidates b is before the one that is taken, and has no smaller score
    obtain ⟨hi,rfl⟩ := List.getElem?_eq_some_iff.mp hc
    rw [← List.take_append_drop i candidates] at hleft
    rcases List.mem_append.mp hleft with hbefore | hafter
    · exact absurd (hmost b hbefore) (not_lt_of_ge (mmrScore_mono hsome hpos hsame hmore.le))
    · have hdrop := h.sorted.sublist (List.drop_sublist i candidates)
      rw [List.drop_eq_getElem_cons hi] at hdrop hafter
      rcases List.mem_cons.mp hafter with rfl | hafter
      · exact absurd hmore (lt_irrefl _)
      · exact absurd ((List.pairwise_cons.mp hdrop).1 b hafter) (not_le_of_gt hmore)
  · by_cases hvanishes : Vanishes mmrLambda (scores c.object)
    · have hlast : vanishing (selected++[c]) scores mmrLambda = vanishing selected scores mmrLambda++[c] := by
        simp [vanishing,hvanishes]
      rw [hlast,List.map_append,List.map_singleton]
      refine List.Nodup.append h.nodup (List.nodup_singleton _) ?_
      rw [List.disjoint_singleton]
      intro hold
      obtain ⟨a,ha,hsame⟩ := List.mem_map.mp hold
      exact hnew hvanishes (List.mem_map.mpr ⟨a,(mem_vanishing.mp ha).1,hsame⟩)
    · have hlast : vanishing (selected++[c]) scores mmrLambda = vanishing selected scores mmrLambda := by
        simp [vanishing,hvanishes]
      rw [hlast]
      exact h.nodup

lemma applyMmr_all (h : (results.length : ℤ) ≤ k) :
    applyMmr base.doubles mmrLambda scores k results = results := if_pos h

lemma applyMmr_empty (h : k ≤ 0) (hne : results ≠ []) :
    applyMmr base.doubles mmrLambda scores k results = [] := by
  have hpos := List.length_pos_iff.mpr hne
  cases results with
  | nil => exact absurd rfl hne
  | cons c cs =>
    unfold applyMmr
    rw [if_neg (by omega),List.length_cons,mmrLoop,if_pos (.inr (by simpa using h))]

variable (base scores mmrLambda) in
lemma applyMmr_cut (hpos : 0 < k) (hcut : k < results.length) : ∃ c cs, results = c::cs ∧
    Growing results k [c] cs ∧ applyMmr base.doubles mmrLambda scores k results =
      mmrLoop base.doubles mmrLambda scores k cs.length [c] cs := by
  cases results with
  | nil =>
    simp only [List.length_nil] at hcut
    omega
  | cons c cs =>
    refine ⟨c,cs,rfl,⟨List.Perm.refl _,fun _ ha => ha,?_⟩,?_⟩
    · simp only [List.length_singleton]
      omega
    · unfold applyMmr
      rw [if_neg (by omega),List.length_cons,mmrLoop_first hpos]

lemma complete_of_fills (hne : results ≠ []) (hscores : ∀ a ∈ results, 0 ≤ scores a.object)
    (hlambda : 0 ≤ mmrLambda ∧ mmrLambda ≤ 1)
    (hsizes : ∀ a ∈ results, (tokens base a).card < 2 ^ 52)
    (h : Fills base results scores k mmrLambda) :
    Complete results k (applyMmr base.doubles mmrLambda scores k results) := by
  obtain ⟨hk,hcond⟩ := h
  rcases le_or_gt (results.length : ℤ) k with hall | hcut
  · rw [applyMmr_all hall]
    exact ⟨by omega,List.Subperm.refl _,by simp⟩
  rcases hk.lt_or_eq with hpos | rfl
  swap
  · rw [applyMmr_empty le_rfl hne]
    exact ⟨by simp,List.nil_subperm,by simp⟩
  obtain ⟨c,cs,-,hstart,hloop⟩ := applyMmr_cut base scores mmrLambda hpos hcut
  obtain ⟨out,rest,hout,hgrown,hsome,hend⟩ :=
    mmrLoop_rule base mmrLambda scores (List.cons_ne_nil c []) le_rfl hstart
    fun _ _ _ _ hsome hroom hgrowing hc _ _ => hgrowing.step hsome hroom hc
  rw [hloop,hout]
  have hpart : out.Subperm results :=
    (List.sublist_append_left out rest).subperm.trans hgrown.perm.symm.subperm
  suffices henough : k ≤ out.length from
    ⟨by have hmost := hgrown.most; omega,hpart,hgrown.first⟩
  by_contra hshort
  have hlength := hgrown.perm.length_eq
  rw [List.length_append] at hlength
  -- a result is left over, and none of those is above the floor
  obtain ⟨d,hd⟩ := List.exists_mem_of_length_pos (l := rest) (by omega)
  have hstuck := (hend.resolve_left hshort).resolve_left (List.ne_nil_of_mem hd)
  have hscore : ∀ a ∈ rest, 0 ≤ scores a.object :=
    fun a ha => hscores a (hgrown.perm.symm.subset (List.mem_append_right _ ha))
  rcases hcond with hall | hweight | htold
  · omega
  · exact absurd (hstuck d hd) (not_le_of_gt (weighted_above hsome hlambda (hscore d hd) hweight))
  · have hless := toldApart_le base scores mmrLambda hgrown.perm
      (fun a ha => by
        by_contra hcounts
        exact absurd (hstuck a ha) (not_le_of_gt (kept_above hsome hlambda (hscore a ha) hcounts)))
      (fun a ha => by
        rcases List.mem_append.mp (hgrown.perm.subset ha) with htaken | hrest
        · exact List.mem_map_of_mem htaken
        · by_contra hnew
          exact absurd (hstuck a hrest) (not_le_of_gt (new_above hsome hlambda (hscores a ha) hnew
            (hsizes a ha) fun b hb => hsizes b (hpart.subset hb))))
    omega

lemma fills_of_complete (hscores : ∀ a ∈ results, 0 ≤ scores a.object)
    (hlambda : 0 ≤ mmrLambda ∧ mmrLambda ≤ 1)
    (hsorted : results.Pairwise fun a b => scores b.object ≤ scores a.object)
    (h : Complete results k (applyMmr base.doubles mmrLambda scores k results)) :
    Fills base results scores k mmrLambda := by
  have hcount := h.count
  have hk : 0 ≤ k := by omega
  refine ⟨hk,?_⟩
  rcases le_or_gt (results.length : ℤ) k with hall | hcut
  · exact .inl hall
  rcases hk.lt_or_eq with hpos | rfl
  swap
  · exact .inr (.inr (by omega))
  rcases (weight_le_one hlambda).lt_or_eq with hless | hone
  · exact .inr (.inl hless)
  right; right
  obtain ⟨c,cs,rfl,hstart,hloop⟩ := applyMmr_cut base scores mmrLambda hpos hcut
  obtain ⟨habove,hsortedRest⟩ := List.pairwise_cons.mp hsorted
  have htold : Told base (c::cs) scores k mmrLambda [c] cs := by
    refine { toGrowing := hstart, sorted := hsortedRest, lone := ?_, nodup := ?_ }
    · intro a ha hvanishes b hb _
      obtain rfl := List.mem_singleton.mp ha
      rcases List.mem_cons.mp hb with rfl | hrest
      · exact hvanishes
      · exact hvanishes.mono hlambda.1 (hscores b hb) (habove b hrest)
    · exact ((List.nodup_singleton c).sublist List.filter_sublist).map_on fun a ha b hb _ => by
        rw [List.mem_singleton.mp (mem_vanishing.mp ha).1,List.mem_singleton.mp (mem_vanishing.mp hb).1]
  obtain ⟨out,rest,hout,hgrown,-⟩ := mmrLoop_rule base mmrLambda scores (List.cons_ne_nil c [])
    le_rfl htold
    fun _ _ _ _ hsome hroom htold hc habove hmost =>
      htold.step hsome hlambda.1 hone hscores hroom hc habove hmost
  rw [hloop,hout] at hcount
  have hless := le_toldApart ((List.sublist_append_left out rest).subperm.trans
    hgrown.perm.symm.subperm) hgrown.lone hgrown.nodup
  omega

/-- `apply_mmr` fills its list where everything fits, relevance has a weight or enough results can
be told apart; of a list that is sorted by score, as it is asked to be, only there. -/
theorem apply_mmr_complete_iff (base : RerankEnv ℚ) (scores : Scores ℚ) (results : List Candidate)
    (k : ℤ) (mmrLambda : ℚ) (hne : results ≠ []) (hscores : ∀ a ∈ results, 0 ≤ scores a.object)
    (hlambda : 0 ≤ mmrLambda ∧ mmrLambda ≤ 1)
    (hsizes : ∀ a ∈ results, (tokens base a).card < 2 ^ 52) :
    (Fills base results scores k mmrLambda →
      Complete results k (applyMmr base.doubles mmrLambda scores k results)) ∧
    (results.Pairwise (fun a b => scores b.object ≤ scores a.object) →
      Complete results k (applyMmr base.doubles mmrLambda scores k results) →
        Fills base results scores k mmrLambda) :=
  ⟨complete_of_fills hne hscores hlambda hsizes,fills_of_complete hscores hlambda⟩

def greenTea (object : ℕ) (content : String) : Candidate := ⟨object,object,content,none⟩

def teaResults : List Candidate :=
  [greenTea 3 "green tea",greenTea 2 "tea green",greenTea 1 "green tea"]

/-- Wholly towards diversity, only one of three results with the same tokens is left of the two
that are asked for. -/
theorem diversity_drops : ¬ Complete teaResults 2
    (applyMmr exactEnv.doubles 0 (fun object => object) 2 teaResults) := by
  intro h
  have hcount := h.count
  have hone : (applyMmr exactEnv.doubles 0 (fun object => object) 2 teaResults).length = 1 := by
    decide +kernel
  rw [hone] at hcount
  exact absurd hcount (by decide)

/-- Half towards diversity two results are found; and where relevance has no weight, two are only
found where two can be told apart. -/
theorem apply_mmr_complete_sample : Complete teaResults 2
      (applyMmr exactEnv.doubles (1 / 2) (fun object => object) 2 teaResults) ∧
    (Complete teaResults 2 (applyMmr exactEnv.doubles 0 (fun object => object) 2 teaResults) →
      Fills exactEnv teaResults (fun object => object) 2 0) := by
  have hscores : ∀ a ∈ teaResults, (0 : ℚ) ≤ a.object := fun a _ => Nat.cast_nonneg _
  have hsizes : ∀ a ∈ teaResults, (tokens exactEnv a).card < 2 ^ 52 := by decide +kernel
  refine ⟨(apply_mmr_complete_iff exactEnv (fun object => object) teaResults 2 (1 / 2)
    (by simp [teaResults])
    hscores (by norm_num) hsizes).1 ?_,(apply_mmr_complete_iff exactEnv (fun object => object)
    teaResults 2 0
    (by simp [teaResults]) hscores (by norm_num) hsizes).2 ?_⟩
  · exact ⟨by norm_num,.inr (.inl (by decide +kernel))⟩
  · simp [teaResults,greenTea]

end Memora.Rerank
