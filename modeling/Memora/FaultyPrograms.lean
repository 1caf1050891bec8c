import Mathlib

/-! A program runs on a state that outlives it. Each of its operations takes effect, fails without
effect and raises, or does not come back because the process dies before it: what the state is
then is what a restart finds. Triples say what holds in each of the three cases. -/
namespace Memora

inductive Fate
  | ok | fails | crashes
  deriving DecidableEq

inductive Outcome (ε α : Type)
  | ok (a : α)
  | raised (e : ε)
  | crashed
  deriving DecidableEq

/-- What becomes of the next operations, each decided in the state that it meets; no decision
means that all goes well. -/
abbrev Faults (σ : Type) := List (σ → Fate)

def Faulty (σ ε α : Type) := σ → Faults σ → Outcome ε α × σ × Faults σ

namespace Faulty
variable {σ ε α β : Type}

variable (m : Faulty σ ε α)

def bind (f : α → Faulty σ ε β) : Faulty σ ε β := fun s faults =>
  match m s faults with
  | (.ok a,s',rest) => f a s' rest
  | (.raised e,s',rest) => (.raised e,s',rest)
  | (.crashed,s',rest) => (.crashed,s',rest)

instance : Monad (Faulty σ ε) where
  pure a := fun s faults => (.ok a,s,faults)
  bind := bind

def get : Faulty σ ε σ := fun s faults => (.ok s,s,faults)

/-- A change of what only the process knows. -/
def modify (f : σ → σ) : Faulty σ ε Unit := fun s faults => (.ok (),f s,faults)

def raise (e : ε) : Faulty σ ε α := fun s faults => (.raised e,s,faults)

/-- An operation on what outlives the process; `e` is raised where it fails. -/
def operation (e : ε) (f : σ → σ) : Faulty σ ε Unit := fun s faults =>
  match faults with
  | [] => (.ok (),f s,[])
  | decision::rest =>
    match decision s with
    | .ok => (.ok (),f s,rest)
    | .fails => (.raised e,s,rest)
    | .crashes => (.crashed,s,rest)

/-- Handle what the first program raises; nothing handles a crash. -/
def handle (handler : ε → Faulty σ ε α) : Faulty σ ε α := fun s faults =>
  match m s faults with
  | (.raised e,s',rest) => handler e s' rest
  | done => done

def forEach (body : β → Faulty σ ε Unit) : List β → Faulty σ ε Unit
  | [] => pure ()
  | b::rest => do
    body b
    forEach body rest

def after (s : σ) (faults : Faults σ) : σ := (m s faults).2.1

end Faulty

/-- What holds when a program returns, raises or dies. -/
structure Post (σ ε α : Type) where
  ok : α → σ → Prop
  raised : ε → σ → Prop
  crashed : σ → Prop

@[simp] def Post.Meets {σ ε α : Type} (Q : Post σ ε α) (outcome : Outcome ε α) (s : σ) : Prop :=
  match outcome with
  | .ok a => Q.ok a s
  | .raised e => Q.raised e s
  | .crashed => Q.crashed s

def Allowed {σ : Type} (good : σ → Fate → Prop) (faults : Faults σ) : Prop :=
  ∀ decision ∈ faults, ∀ s, good s (decision s)

def Triple {σ ε α : Type} (good : σ → Fate → Prop) (P : σ → Prop) (m : Faulty σ ε α)
    (Q : Post σ ε α) : Prop :=
  ∀ s faults, P s → Allowed good faults →
    Q.Meets (m s faults).1 (m s faults).2.1 ∧ Allowed good (m s faults).2.2

namespace Triple
variable {σ ε α β : Type} {good : σ → Fate → Prop} {P P' : σ → Prop} {Q : Post σ ε α}

lemma pure {a : α} (h : ∀ s, P s → Q.ok a s) : Triple good P (Pure.pure a) Q :=
  fun s _ hs hgood => ⟨h s hs,hgood⟩

lemma raise {e : ε} (h : ∀ s, P s → Q.raised e s) : Triple good P (Faulty.raise e) Q :=
  fun s _ hs hgood => ⟨h s hs,hgood⟩

lemma modify {Q : Post σ ε Unit} {f : σ → σ} (h : ∀ s, P s → Q.ok () (f s)) :
    Triple good P (Faulty.modify f) Q :=
  fun s _ hs hgood => ⟨h s hs,hgood⟩

lemma operation {Q : Post σ ε Unit} {e : ε} {f : σ → σ} (hok : ∀ s, P s → Q.ok () (f s))
    (hfails : ∀ s, P s → good s .fails → Q.raised e s)
    (hcrash : ∀ s, P s → good s .crashes → Q.crashed s) :
    Triple good P (Faulty.operation e f) Q := by
  intro s faults hs hgood
  unfold Faulty.operation
  cases faults with
  | nil => exact ⟨hok s hs,hgood⟩
  | cons decision rest =>
    have hrest : Allowed good rest := fun d hd => hgood d (List.mem_cons_of_mem _ hd)
    have hnow := hgood decision List.mem_cons_self s
    cases hfate : decision s with
    | ok => simpa [hfate] using And.intro (hok s hs) hrest
    | fails => simpa [hfate] using And.intro (hfails s hs (hfate ▸ hnow)) hrest
    | crashes => simpa [hfate] using And.intro (hcrash s hs (hfate ▸ hnow)) hrest

variable {m : Faulty σ ε α}

lemma bind {Q : Post σ ε β} {f : α → Faulty σ ε β} (R : α → σ → Prop)
    (hm : Triple good P m ⟨R,Q.raised,Q.crashed⟩) (hf : ∀ a, Triple good (R a) (f a) Q) :
    Triple good P (m >>= f) Q := by
  intro s faults hs hgood
  have hfirst := hm s faults hs hgood
  show Q.Meets (Faulty.bind m f s faults).1 (Faulty.bind m f s faults).2.1 ∧
    Allowed good (Faulty.bind m f s faults).2.2
  unfold Faulty.bind
  rcases hrun : m s faults with ⟨outcome,s',rest⟩
  rw [hrun] at hfirst
  cases outcome with
  | ok a => exact hf a s' rest hfirst.1 hfirst.2
  | raised | crashed => exact hfirst

theorem get_bind {f : σ → Faulty σ ε α} (h : ∀ s, P s → Triple good (fun t => t = s) (f s) Q) :
    Triple good P (Faulty.get >>= f) Q :=
  fun s faults hs hgood => h s hs s faults rfl hgood

lemma handle {handler : ε → Faulty σ ε α} (R : ε → σ → Prop)
    (hm : Triple good P m ⟨Q.ok,R,Q.crashed⟩) (hhandler : ∀ e, Triple good (R e) (handler e) Q) :
    Triple good P (Faulty.handle m handler) Q := by
  intro s faults hs hgood
  have hfirst := hm s faults hs hgood
  unfold Faulty.handle
  rcases hrun : m s faults with ⟨outcome,s',rest⟩
  rw [hrun] at hfirst
  cases outcome with
  | ok | crashed => exact hfirst
  | raised e => exact hhandler e s' rest hfirst.1 hfirst.2

lemma consequence {Q' : Post σ ε α} (h : Triple good P' m Q') (hpre : ∀ s, P s → P' s)
    (hok : ∀ a s, Q'.ok a s → Q.ok a s) (hraised : ∀ e s, Q'.raised e s → Q.raised e s)
    (hcrashed : ∀ s, Q'.crashed s → Q.crashed s) :
    Triple good P m Q := by
  intro s faults hs hgood
  obtain ⟨hmeets,hrest⟩ := h s faults (hpre s hs) hgood
  refine ⟨?_,hrest⟩
  cases hout : (m s faults).1 with
  | ok a =>
    rw [hout] at hmeets
    exact hok a _ hmeets
  | raised e =>
    rw [hout] at hmeets
    exact hraised e _ hmeets
  | crashed =>
    rw [hout] at hmeets
    exact hcrashed _ hmeets

lemma weaken (h : Triple good P' m Q) (hpre : ∀ s, P s → P' s) :
    Triple good P m Q :=
  h.consequence hpre (fun _ _ hq => hq) (fun _ _ hq => hq) fun _ hq => hq

lemma or (h : Triple good P m Q) (h' : Triple good P' m Q) :
    Triple good (fun s => P s ∨ P' s) m Q :=
  fun s faults hs hgood => hs.elim (fun hp => h s faults hp hgood) fun hp => h' s faults hp hgood

lemma vacuous (h : ∀ s, ¬P s) : Triple good P m Q :=
  fun s _ hs => (h s hs).elim

lemma ite {p : Prop} [Decidable p] {m m' : Faulty σ ε α} (hpos : p → Triple good P m Q)
    (hneg : ¬p → Triple good P m' Q) : Triple good P (if p then m else m') Q := by
  by_cases hp : p
  · rw [if_pos hp]
    exact hpos hp
  · rw [if_neg hp]
    exact hneg hp

lemma forEach {Q : Post σ ε Unit} {body : β → Faulty σ ε Unit} (I : List β → σ → Prop)
    (hbody : ∀ b rest, Triple good (I (b::rest)) (body b) ⟨fun _ => I rest,Q.raised,Q.crashed⟩)
    (hdone : ∀ s, I [] s → Q.ok () s) (items : List β) :
    Triple good (I items) (Faulty.forEach body items) Q := by
  induction items with
  | nil => exact pure hdone
  | cons b rest ih => exact bind (fun _ => I rest) (hbody b rest) fun _ => ih

lemma after {R : σ → Prop} (h : Triple good P m ⟨fun _ => R,fun _ => R,R⟩) {s : σ}
    {faults : Faults σ} (hs : P s) (hgood : Allowed good faults) :
    R (m.after s faults) := by
  have hmeets := (h s faults hs hgood).1
  cases hout : (m s faults).1 <;> rw [hout] at hmeets <;> exact hmeets

end Triple

end Memora
