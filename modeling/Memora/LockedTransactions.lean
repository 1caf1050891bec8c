import Mathlib

/-! A program reads the committed state, and changes it in transactions. A transaction takes the
write lock, works on a copy of its own and publishes it when it commits; where it fails at any
statement, nothing of it remains. Between two statements of one caller any other caller may
run. What a caller commits is a whole transaction of its program, run on the state that was
committed last. -/
namespace Memora.LockedTransactions

/-- The statements of a transaction; a read in it sees its own changes. -/
inductive Transaction (σ : Type*)
  | commit
  | raise
  | select (k : σ → Transaction σ)
  | change (f : σ → σ) (k : Transaction σ)

inductive Program (σ : Type*)
  | done
  | raise
  | read (k : σ → Program σ)
  | write (t : Transaction σ) (k : Program σ)

variable {σ α ι : Type*}

/-- What a transaction publishes when it starts in a state; nothing where it raises. -/
def Transaction.run : Transaction σ → σ → Option σ
  | .commit, s => some s
  | .raise, _ => none
  | .select k, s => (k s).run s
  | .change f k, s => k.run (f s)

inductive Caller (σ α : Type*)
  | idle
  | outside (call : α) (landed : ℕ) (seen : List σ) (program : Program σ)
  | inside (call : α) (landed : ℕ) (seen : List σ) (working : σ) (t : Transaction σ)
      (rest : Program σ)

/-- A commit: who made it, in which call, and how many the call had made before. -/
structure Commit (ι α : Type*) where
  caller : ι
  call : α
  index : ℕ

structure World (σ α ι : Type*) where
  committed : σ
  callers : ι → Caller σ α
  writer : Option ι
  commits : List (Commit ι α)

inductive Event (α ι : Type*)
  | call (i : ι) (a : α)
  | step (i : ι)
  | fail (i : ι)

variable [DecidableEq ι]

variable (w : World σ α ι) {rest : Program σ}

def World.setCaller (i : ι) (c : Caller σ α) : World σ α ι :=
  { w with callers := Function.update w.callers i c }

/-- The caller's call is over; a lock it held is free again. -/
def World.leave (i : ι) : World σ α ι :=
  { w.setCaller i .idle with writer := if w.writer = some i then none else w.writer }

/-- The caller publishes its working copy; a program without further statements returns. -/
def World.publish (i : ι) (a : α) (landed : ℕ) (seen : List σ) (working : σ) (rest : Program σ) :
    World σ α ι :=
  let next := match rest with
    | .done => Caller.idle
    | rest => .outside a (landed+1) seen rest
  { w.setCaller i next with
    committed := working
    writer := none
    commits := w.commits++[⟨i,a,landed⟩] }

def World.advance (i : ι) : World σ α ι :=
  match w.callers i with
  | .idle => w
  | .outside _ _ _ .done => w.leave i
  | .outside _ _ _ .raise => w.leave i
  | .outside a n seen (.read k) =>
    w.setCaller i (.outside a n (seen++[w.committed]) (k w.committed))
  | .outside a n seen (.write t rest) =>
    if w.writer = none then
      { w.setCaller i (.inside a n seen w.committed t rest) with writer := some i }
    else w
  | .inside a n seen working .commit rest => w.publish i a n seen working rest
  | .inside _ _ _ _ .raise _ => w.leave i
  | .inside a n seen working (.select k) rest =>
    w.setCaller i (.inside a n seen working (k working) rest)
  | .inside a n seen working (.change f k) rest =>
    w.setCaller i (.inside a n seen (f working) k rest)

/-- A failure is an error of a statement, or a cancellation; the connection rolls back. -/
def World.next (program : α → Program σ) (w : World σ α ι) : Event α ι → World σ α ι
  | .call i a => match w.callers i with
    | .idle => w.setCaller i (.outside a 0 [] (program a))
    | _ => w
  | .step i => w.advance i
  | .fail i => w.leave i

def World.start (s : σ) : World σ α ι := ⟨s,fun _ => .idle,none,[]⟩

inductive Residual (p : Program σ) : ℕ → List σ → Program σ → Prop
  | start : Residual p 0 [] p
  | read {n : ℕ} {seen : List σ} {k : σ → Program σ} (s : σ) :
      Residual p n seen (.read k) → Residual p n (seen++[s]) (k s)
  | write {n : ℕ} {seen : List σ} {t : Transaction σ} {rest : Program σ} :
      Residual p n seen (.write t rest) → Residual p (n+1) seen rest

section Residual

variable {n : ℕ} {seen : List σ} {q : Program σ}

lemma residual_done (h : Residual .done n seen q) : n = 0 ∧ seen = [] ∧ q = .done := by
  induction h with
  | start => exact ⟨rfl,rfl,rfl⟩
  | read _ _ ih => cases ih.2.2
  | write _ ih => cases ih.2.2

lemma residual_raise (h : Residual .raise n seen q) : n = 0 ∧ seen = [] ∧ q = .raise := by
  induction h with
  | start => exact ⟨rfl,rfl,rfl⟩
  | read _ _ ih => cases ih.2.2
  | write _ ih => cases ih.2.2

lemma residual_read {k : σ → Program σ} (h : Residual (.read k) n seen q) :
    (n = 0 ∧ seen = [] ∧ q = .read k) ∨
      ∃ s later, seen = s::later ∧ Residual (k s) n later q := by
  induction h with
  | start => exact .inl ⟨rfl,rfl,rfl⟩
  | read s _ ih =>
    rcases ih with ⟨rfl,rfl,hq⟩ | ⟨s',later,rfl,hlater⟩
    · cases hq
      exact .inr ⟨s,[],rfl,.start⟩
    · exact .inr ⟨s',later++[s],rfl,hlater.read s⟩
  | write _ ih =>
    rcases ih with ⟨-,-,hq⟩ | ⟨s',later,rfl,hlater⟩
    · cases hq
    · exact .inr ⟨s',later,rfl,hlater.write⟩

lemma residual_write {t : Transaction σ} (h : Residual (.write t rest) n seen q) :
    (n = 0 ∧ seen = [] ∧ q = .write t rest) ∨ ∃ m, n = m+1 ∧ Residual rest m seen q := by
  induction h with
  | start => exact .inl ⟨rfl,rfl,rfl⟩
  | read s _ ih =>
    rcases ih with ⟨-,-,hq⟩ | ⟨m,rfl,hm⟩
    · cases hq
    · exact .inr ⟨m,rfl,hm.read s⟩
  | write _ ih =>
    rcases ih with ⟨rfl,rfl,hq⟩ | ⟨m,rfl,hm⟩
    · cases hq
      exact .inr ⟨0,rfl,.start⟩
    · exact .inr ⟨m+1,rfl,hm.write⟩

end Residual

variable {program : α → Program σ} {w : World σ α ι} {i j : ι}

/-- The caller is somewhere in the program of its call. Inside a transaction, what is left of
it takes the working copy where the whole takes the committed state. -/
def Caller.Placed (program : α → Program σ) (committed : σ) : Caller σ α → Prop
  | .idle => True
  | .outside a n seen p => Residual (program a) n seen p
  | .inside a n seen working t rest => ∃ whole, Residual (program a) n seen (.write whole rest) ∧
      t.run working = whole.run committed

def Caller.isInside : Caller σ α → Bool
  | .inside _ _ _ _ _ _ => true
  | _ => false

structure World.Isolated (program : α → Program σ) (w : World σ α ι) : Prop where
  placed : ∀ i, (w.callers i).Placed program w.committed
  locked : ∀ i, (w.callers i).isInside = true → w.writer = some i

omit [DecidableEq ι] in
lemma World.Isolated.start (s : σ) : (World.start s : World σ α ι).Isolated program :=
  ⟨fun _ => trivial,fun _ h => by cases h⟩

lemma Caller.Placed.of_outside {c : Caller σ α} {s : σ} (h : c.Placed program s)
    (hout : c.isInside = false) (s' : σ) : c.Placed program s' := by
  cases c with
  | idle => trivial
  | outside => exact h
  | inside => cases hout

lemma World.Isolated.setCaller (h : w.Isolated program) {c : Caller σ α}
    (hc : c.Placed program w.committed) (hin : c.isInside = true → w.writer = some i) :
    (w.setCaller i c).Isolated program := by
  refine ⟨?_,?_⟩
  · intro j
    by_cases hj : j = i
    · subst hj
      simpa [World.setCaller] using hc
    · simpa [World.setCaller,Function.update_of_ne hj] using h.placed j
  · intro j hjin
    by_cases hj : j = i
    · subst hj
      exact hin (by simpa [World.setCaller] using hjin)
    · exact h.locked j (by simpa [World.setCaller,Function.update_of_ne hj] using hjin)

lemma World.Isolated.leave (h : w.Isolated program) (i : ι) : (w.leave i).Isolated program := by
  have hidle : (w.setCaller i .idle).Isolated program := h.setCaller trivial fun hin => by cases hin
  refine ⟨hidle.placed,?_⟩
  intro j hj
  have hwriter : w.writer = some j := hidle.locked j hj
  have hne : j ≠ i := by
    rintro rfl
    simp [World.leave,World.setCaller,Caller.isInside] at hj
  simp [World.leave,hwriter,hne]

omit [DecidableEq ι] in
lemma World.Isolated.outside (h : w.Isolated program) (hfree : w.writer ≠ some j) :
    (w.callers j).isInside = false := by
  cases hin : (w.callers j).isInside with
  | false => rfl
  | true => exact absurd (h.locked j hin) hfree

inductive World.Moves (program : α → Program σ) (w : World σ α ι) (e : Event α ι)
    (w' : World σ α ι) : Prop
  | still : w'.committed = w.committed → w'.commits = w.commits → Moves program w e w'
  | commit (i : ι) (a : α) (n : ℕ) (seen : List σ) (working : σ) (t : Transaction σ)
      (rest : Program σ) : e = .step i →
      w.callers i = .inside a n seen working .commit rest →
      Residual (program a) n seen (.write t rest) → t.run w.committed = some w'.committed →
      w'.commits = w.commits++[⟨i,a,n⟩] → Moves program w e w'

lemma World.Isolated.publish (h : w.Isolated program) {a : α} {n : ℕ} {seen : List σ}
    {working : σ} (hwriter : w.writer = some i)
    (hrest : Residual (program a) (n+1) seen rest) :
    (w.publish i a n seen working rest).Isolated program := by
  have hout : ∀ j ≠ i, (w.callers j).isInside = false := by
    intro j hj
    apply h.outside
    rw [hwriter]
    exact fun heq => hj (Option.some.inj heq).symm
  have hnext : ∀ c, c = (match rest with
      | .done => Caller.idle
      | rest => .outside a (n+1) seen rest) → c.Placed program working ∧ c.isInside = false := by
    rintro c rfl
    cases rest with
    | done => exact ⟨trivial,rfl⟩
    | raise | read | write => exact ⟨hrest,rfl⟩
  obtain ⟨hplaced,hinside⟩ := hnext _ rfl
  refine ⟨?_,?_⟩
  · intro j
    by_cases hj : j = i
    · subst hj
      simpa [World.publish,World.setCaller] using hplaced
    · simpa [World.publish,World.setCaller,Function.update_of_ne hj] using
        (h.placed j).of_outside (hout j hj) working
  · intro j hjin
    by_cases hj : j = i
    · subst hj
      simp [World.publish,World.setCaller,hinside] at hjin
    · simp [World.publish,World.setCaller,Function.update_of_ne hj,hout j hj] at hjin

lemma World.Isolated.advance (h : w.Isolated program) (i : ι) :
    (w.advance i).Isolated program ∧ w.Moves program (.step i) (w.advance i) := by
  have hplaced := h.placed i
  unfold World.advance
  cases hc : w.callers i with
  | idle => exact ⟨h,.still rfl rfl⟩
  | outside a n seen p =>
    rw [hc] at hplaced
    cases p with
    | done | raise => exact ⟨h.leave i,.still rfl rfl⟩
    | read k =>
      refine ⟨h.setCaller ?_ (fun hin => by cases hin),.still rfl rfl⟩
      exact Residual.read w.committed hplaced
    | write t rest =>
      simp only
      split
      · rename_i hfree
        -- the lock was free, so every other caller is outside
        have hout : ∀ j, (w.callers j).isInside = false := by
          intro j
          apply h.outside
          rw [hfree]
          simp
        refine ⟨⟨?_,?_⟩,.still rfl rfl⟩
        · intro j
          by_cases hj : j = i
          · subst hj
            have hcaller : (w.setCaller j (.inside a n seen w.committed t rest)).callers j =
                .inside a n seen w.committed t rest := Function.update_self _ _ _
            rw [hcaller]
            exact ⟨t,hplaced,rfl⟩
          · simpa [World.setCaller,Function.update_of_ne hj] using h.placed j
        · intro j hjin
          by_cases hj : j = i
          · rw [hj]
          · simp [World.setCaller,Function.update_of_ne hj,hout j] at hjin
      · exact ⟨h,.still rfl rfl⟩
  | inside a n seen working t rest =>
    rw [hc] at hplaced
    obtain ⟨whole,hresidual,hrun⟩ := hplaced
    have hwriter : w.writer = some i := h.locked i (by rw [hc]; rfl)
    cases t with
    | commit =>
      refine ⟨h.publish hwriter hresidual.write,?_⟩
      exact .commit i a n seen working whole rest rfl hc hresidual hrun.symm rfl
    | raise => exact ⟨h.leave i,.still rfl rfl⟩
    | select | change =>
      exact ⟨h.setCaller ⟨whole,hresidual,hrun⟩ fun _ => hwriter,.still rfl rfl⟩

/-- Whatever happens, transactions stay isolated, and only whole transactions are committed. -/
theorem World.Isolated.next (h : w.Isolated program) (e : Event α ι) :
    (w.next program e).Isolated program ∧ w.Moves program e (w.next program e) := by
  cases e with
  | call i a =>
    unfold World.next
    simp only
    split
    · exact ⟨h.setCaller Residual.start (fun hin => by cases hin),.still rfl rfl⟩
    · exact ⟨h,.still rfl rfl⟩
  | step i => exact h.advance i
  | fail i => exact ⟨h.leave i,.still rfl rfl⟩

def Caller.view : Caller σ α → Option (α × ℕ × List σ)
  | .idle => none
  | .outside a n seen _ => some (a,n,seen)
  | .inside a n seen _ _ _ => some (a,n,seen)

/-- How the view on a caller changes in a step: its call goes on, is over, begins, reads the
committed state, or commits. -/
inductive World.ViewMoves (program : α → Program σ) (w : World σ α ι) (e : Event α ι) (j : ι) :
    Option (α × ℕ × List σ) → Prop
  | same : ViewMoves program w e j (w.callers j).view
  | ends : ViewMoves program w e j none
  | begins (a : α) : e = .call j a → w.callers j = .idle → ViewMoves program w e j (some (a,0,[]))
  | reads (a : α) (n : ℕ) (seen : List σ) (k : σ → Program σ) : e = .step j →
      w.callers j = .outside a n seen (.read k) →
      ViewMoves program w e j (some (a,n,seen++[w.committed]))
  | commits (a : α) (n : ℕ) (seen : List σ) (working : σ) (rest : Program σ) : e = .step j →
      w.callers j = .inside a n seen working .commit rest → rest ≠ .done →
      ViewMoves program w e j (some (a,n+1,seen))

lemma World.view_setCaller (i : ι) (c : Caller σ α) :
    ((w.setCaller i c).callers i).view = c.view := by simp [World.setCaller]

variable (c : Caller σ α)

lemma World.view_setCaller_of_ne (hj : j ≠ i) :
    ((w.setCaller i c).callers j).view = (w.callers j).view := by
  simp [World.setCaller,Function.update_of_ne hj]

lemma World.advance_view (i : ι) : w.ViewMoves program (.step i) i
    ((w.advance i).callers i).view := by
  have hsame : ∀ c : Caller σ α, c.view = (w.callers i).view →
      w.ViewMoves program (.step i) i ((w.setCaller i c).callers i).view := by
    intro c hc
    rw [w.view_setCaller,hc]
    exact .same
  have hleave : w.ViewMoves program (.step i) i ((w.leave i).callers i).view := by
    have hidle : ((w.leave i).callers i).view = none := w.view_setCaller i .idle
    rw [hidle]
    exact .ends
  unfold World.advance
  cases hc : w.callers i with
  | idle =>
    have hidle : ((w.callers i).view) = none := by rw [hc]; rfl
    rw [hidle]
    exact .ends
  | outside a n seen p =>
    cases p with
    | done | raise => exact hleave
    | read k =>
      rw [w.view_setCaller]
      exact .reads a n seen k rfl hc
    | write t rest =>
      simp only
      split
      · exact hsame (.inside a n seen w.committed t rest) (by rw [hc]; rfl)
      · exact .same
  | inside a n seen working t rest =>
    cases t with
    | commit =>
      unfold World.publish
      rw [w.view_setCaller]
      cases rest with
      | done => exact .ends
      | raise | read | write => exact .commits a n seen working _ rfl hc (by simp)
    | raise => exact hleave
    | select k => exact hsame (.inside a n seen working (k working) rest) (by rw [hc]; rfl)
    | change f k => exact hsame (.inside a n seen (f working) k rest) (by rw [hc]; rfl)

lemma World.advance_view_of_ne (hj : j ≠ i) :
    ((w.advance i).callers j).view = (w.callers j).view := by
  have hset := fun c => w.view_setCaller_of_ne c hj
  unfold World.advance
  split
  · rfl
  · exact hset .idle
  · exact hset .idle
  · exact hset _
  · split
    · exact hset _
    · rfl
  · exact hset _
  · exact hset .idle
  · exact hset _
  · exact hset _

lemma World.next_view (e : Event α ι) (j : ι) :
    w.ViewMoves program e j ((w.next program e).callers j).view := by
  cases e with
  | call i a =>
    unfold World.next
    simp only
    split
    · rename_i hidle
      by_cases hj : j = i
      · subst hj
        rw [w.view_setCaller]
        exact .begins a rfl hidle
      · rw [w.view_setCaller_of_ne _ hj]
        exact .same
    · exact .same
  | step i =>
    change w.ViewMoves program (.step i) j ((w.advance i).callers j).view
    by_cases hj : j = i
    · subst hj
      exact w.advance_view j
    · rw [w.advance_view_of_ne hj]
      exact .same
  | fail i =>
    by_cases hj : j = i
    · subst hj
      have hidle : ((w.next program (.fail j)).callers j).view = none := w.view_setCaller j .idle
      rw [hidle]
      exact .ends
    · have hsame : ((w.next program (.fail i)).callers j).view = (w.callers j).view :=
        w.view_setCaller_of_ne .idle hj
      rw [hsame]
      exact .same

def World.Recorded : Prop :=
  ∀ i a n seen, (w.callers i).view = some (a,n,seen) →
  ((List.range n).map fun k => Commit.mk i a k) <:+
      w.commits.filter fun c => c.caller = i

lemma World.Recorded.start (s : σ) : (World.start s : World σ α ι).Recorded :=
  fun _ _ _ _ h => by cases h

lemma World.advance_commit {a : α} {n : ℕ} {seen : List σ} {working : σ}
    (h : w.callers i = .inside a n seen working .commit rest) :
    (w.advance i).commits = w.commits++[⟨i,a,n⟩] ∧ (((w.advance i).callers i).view = none ∨
        ((w.advance i).callers i).view = some (a,n+1,seen)) := by
  unfold World.advance
  rw [h]
  refine ⟨rfl,?_⟩
  simp only [World.publish,w.view_setCaller]
  cases rest with
  | done => exact .inl rfl
  | raise | read | write => exact .inr rfl

lemma World.Recorded.next (h : w.Recorded) (hisolated : w.Isolated program) (e : Event α ι) :
    (w.next program e).Recorded := by
  intro j a n seen hview
  cases (hisolated.next e).2 with
  | still _ hcommits =>
    rw [hcommits]
    have hv : w.ViewMoves program e j (some (a,n,seen)) := hview ▸ w.next_view e j
    generalize hview' : some (a,n,seen) = view at hv
    cases hv with
    | same => exact h j a n seen hview'.symm
    | ends => cases hview'
    | begins a' _ _ =>
      cases hview'
      exact List.nil_suffix
    | reads a' n' seen' k _ hc =>
      cases hview'
      exact h j a n seen' (by rw [hc]; rfl)
    | commits a' n' seen' working rest he hc _ =>
      subst he
      have hgrown := (World.advance_commit hc).1
      have hlength := congrArg List.length (hgrown.symm.trans hcommits)
      simp at hlength
  | commit i a' n' seen' working t rest he hc _ _ hcommits =>
    subst he
    rw [hcommits,List.filter_append]
    by_cases hj : j = i
    · subst hj
      obtain ⟨older,holder⟩ := h j a' n' seen' (by rw [hc]; rfl)
      rcases (World.advance_commit hc).2 with hnone | hsome
      · cases hview.symm.trans hnone
      · cases hview.symm.trans hsome
        refine ⟨older,?_⟩
        rw [← holder,List.range_succ,List.map_append,List.append_assoc]
        simp
    · have hold : (w.callers j).view = some (a,n,seen) := (w.advance_view_of_ne hj).symm.trans hview
      simpa [Ne.symm hj] using h j a n seen hold

end Memora.LockedTransactions
