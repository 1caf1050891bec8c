import Mathlib

/-! A scan from the left that replaces every match of a pattern, without overlaps. A pattern says
what is left of the text after a match at a place, and may look at the symbol before it. -/
namespace Memora.Substitutions

variable {α : Type*}

/-- What is left after a match at the start of a text, given the symbol before the text. -/
abbrev Pattern (α : Type*) := Option α → List α → Option (List α)

/-- The scan; the number is how many symbols of a match are still skipped. -/
def substituteFrom (p : Pattern α) (r : List α) : Option α → ℕ → List α → List α
  | _, _, [] => []
  | _, k+1, c::s => substituteFrom p r (some c) k s
  | b, 0, c::s =>
    match p b (c::s) with
    | some rest => r++substituteFrom p r (some c) (s.length - rest.length) s
    | none => c::substituteFrom p r (some c) 0 s

def substitute (p : Pattern α) (r s : List α) : List α := substituteFrom p r none 0 s

def occursFrom (p : Pattern α) : Option α → List α → Bool
  | _, [] => false
  | b, c::s => (p b (c::s)).isSome || occursFrom p (some c) s

def occurs (p : Pattern α) (s : List α) : Bool := occursFrom p none s

/-- A match is never empty, and what it leaves is the end of the text. -/
def Consuming (p : Pattern α) : Prop :=
  ∀ b c s rest, p b (c::s) = some rest → rest <:+ s

variable {p : Pattern α} {r s rest : List α} {b : Option α} {c : α}

lemma substituteFrom_of_not_occurs (h : occursFrom p b s = false) :
    substituteFrom p r b 0 s = s := by
  induction s generalizing b with
  | nil => rfl
  | cons c s ih =>
    have hparts : p b (c::s) = none ∧ occursFrom p (some c) s = false := by
      simpa [occursFrom] using h
    rw [substituteFrom,hparts.1]
    exact congrArg (c::·) (ih hparts.2)

lemma substituteFrom_skip (x : List α) : substituteFrom p r (some c) x.length (x++rest) =
      substituteFrom p r (some (x.getLast?.getD c)) 0 rest := by
  induction x generalizing c with
  | nil => rfl
  | cons d x ih =>
    rw [List.length_cons,List.cons_append,substituteFrom,ih,List.getLast?_cons]
    simp

lemma substituteFrom_match (hp : Consuming p) (h : p b (c::s) = some rest) :
    ∃ x, s = x++rest ∧ substituteFrom p r b 0 (c::s) =
      r++substituteFrom p r (some (x.getLast?.getD c)) 0 rest := by
  obtain ⟨x,hx⟩ := hp b c s rest h
  have hlen : s.length - rest.length = x.length := by
    rw [← hx,List.length_append]
    omega
  refine ⟨x,hx.symm,?_⟩
  rw [substituteFrom,h]
  change r++substituteFrom p r (some c) (s.length - rest.length) s = _
  rw [hlen,← hx,substituteFrom_skip]

/-- What holds along the scan, match by match and symbol by symbol. -/
theorem substitute_induction (hp : Consuming p) {Q : Option α → List α → List α → Prop}
    (hnil : ∀ b, Q b [] []) (hkeep : ∀ b c s s', p b (c::s) = none → Q (some c) s s' → Q b (c::s) (c::s'))
    (hmatch : ∀ b b' c x rest s', p b (c::(x++rest)) = some rest → Q b' rest s' →
      Q b (c::(x++rest)) (r++s')) (b : Option α) (s : List α) :
    Q b s (substituteFrom p r b 0 s) := by
  induction hn : s.length using Nat.strong_induction_on generalizing b s with
  | _ n ih =>
    cases s with
    | nil => exact hnil b
    | cons c s =>
      rw [List.length_cons] at hn
      cases hc : p b (c::s) with
      | none =>
        have hstep : substituteFrom p r b 0 (c::s) = c::substituteFrom p r (some c) 0 s := by
          rw [substituteFrom,hc]
        rw [hstep]
        exact hkeep b c s _ hc (ih s.length (by omega) (some c) s rfl)
      | some rest =>
        obtain ⟨x,rfl,hstep⟩ := substituteFrom_match (r := r) hp hc
        rw [hstep]
        rw [List.length_append] at hn
        exact hmatch b _ c x rest _ hc (ih rest.length (by omega) _ rest rfl)

def dropLiteral (same : α → α → Bool) : List α → List α → Option (List α)
  | [], s => some s
  | _::_, [] => none
  | l::ls, c::s => if same l c then dropLiteral same ls s else none

def afterFirst (same : α → α → Bool) (literal : List α) : List α → Option (List α)
  | [] => dropLiteral same literal []
  | c::s =>
    match dropLiteral same literal (c::s) with
    | some rest => some rest
    | none => afterFirst same literal s

def delimited (same : α → α → Bool) (opening closing : List α) : Pattern α := fun _ s =>
  (dropLiteral same opening s).bind (afterFirst same closing)

variable {same : α → α → Bool} {literal opening closing : List α}

lemma dropLiteral_some (h : dropLiteral same literal s = some rest) :
    ∃ x, s = x++rest ∧ List.Forall₂ (fun l c => same l c = true) literal x := by
  induction literal generalizing s with
  | nil => exact ⟨[],by simpa [dropLiteral] using h,.nil⟩
  | cons l ls ih =>
    cases s with
    | nil => simp [dropLiteral] at h
    | cons c s =>
      rw [dropLiteral] at h
      split at h
      · rename_i hsame
        obtain ⟨x,rfl,hx⟩ := ih h
        exact ⟨c::x,rfl,.cons hsame hx⟩
      · cases h

lemma afterFirst_some (h : afterFirst same literal s = some rest) :
    ∃ x y, s = x++y++rest ∧ List.Forall₂ (fun l c => same l c = true) literal y := by
  induction s with
  | nil =>
    obtain ⟨y,hy,hsame⟩ := dropLiteral_some h
    exact ⟨[],y,hy,hsame⟩
  | cons c s ih =>
    rw [afterFirst] at h
    cases hd : dropLiteral same literal (c::s) with
    | some rest' =>
      rw [hd] at h
      obtain rfl : rest' = rest := by simpa using h
      obtain ⟨y,hy,hsame⟩ := dropLiteral_some hd
      exact ⟨[],y,hy,hsame⟩
    | none =>
      rw [hd] at h
      obtain ⟨x,y,rfl,hsame⟩ := ih h
      exact ⟨c::x,y,rfl,hsame⟩

lemma delimited_some (h : delimited same opening closing b s = some rest) :
    ∃ x y z, s = x++y++z++rest ∧ List.Forall₂ (fun l c => same l c = true) opening x ∧
      List.Forall₂ (fun l c => same l c = true) closing z := by
  obtain ⟨left,hopen,hclose⟩ := Option.bind_eq_some_iff.mp h
  obtain ⟨x,rfl,hx⟩ := dropLiteral_some hopen
  obtain ⟨y,z,rfl,hz⟩ := afterFirst_some hclose
  exact ⟨x,y,z,by simp,hx,hz⟩

lemma delimited_consuming (hne : opening ≠ []) : Consuming (delimited same opening closing) := by
  intro b c s rest h
  obtain ⟨x,y,z,heq,hx,-⟩ := delimited_some h
  cases hx with
  | nil => exact absurd rfl hne
  | cons hsame hx =>
    obtain ⟨-,hs⟩ := List.cons.inj heq
    exact ⟨_,hs.symm⟩

end Memora.Substitutions
