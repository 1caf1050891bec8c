import Mathlib

/-! A lock whose waiters queue up with a future each. A release wakes the first of them; it takes
the lock when its task runs again, unless the task was cancelled in between, and then the next one
is woken. Between a wake-up and its task's run the lock is free, but nobody else may take it. -/
namespace Memora.AsyncLocks

variable {τ : Type*} {t : τ}

inductive Future
  | pending | woken | cancelled
  deriving DecidableEq

/-- A task that waits. `mustCancel` is a cancellation that found its future done. -/
structure Waiter (τ : Type*) where
  task : τ
  future : Future := .pending
  mustCancel : Bool := false
  deriving DecidableEq

structure Lock (τ : Type*) where
  locked : Bool := false
  waiters : List (Waiter τ) := []
  deriving DecidableEq

def Waiter.cancel (w : Waiter τ) : Waiter τ :=
  match w.future with
  | .pending => { w with future := .cancelled }
  | _ => { w with mustCancel := true }

lemma Waiter.cancel_woken {w : Waiter τ} (h : w.cancel.future = .woken) : w.future = .woken := by
  unfold Waiter.cancel at h
  split at h
  · cases h
  · exact h

namespace Lock
variable {l : Lock τ}

def tasks (l : Lock τ) : List τ := l.waiters.map Waiter.task

/-- `acquire` up to where it waits; whether it has the lock at once. -/
def acquire (l : Lock τ) (t : τ) : Lock τ × Bool :=
  if !l.locked && l.waiters.all (fun w => w.future = .cancelled) then
    ({ l with locked := true },true)
  else ({ l with waiters := l.waiters++[{ task := t }] },false)

def wakeUpFirst (l : Lock τ) : Lock τ :=
  match l.waiters with
  | [] => l
  | w::ws =>
    if w.future = .pending then { l with waiters := { w with future := .woken }::ws } else l

/-- None where the lock is not held. -/
def release (l : Lock τ) : Option (Lock τ) :=
  if l.locked then some { l with locked := false }.wakeUpFirst else none

structure Sound (l : Lock τ) : Prop where
  nodup : l.tasks.Nodup
  first : ∀ w ∈ l.waiters.tail, w.future ≠ .woken
  free : ∀ w ∈ l.waiters, w.future = .woken → l.locked = false

lemma sound_empty : Sound ({} : Lock τ) := ⟨by simp [tasks],by simp,by simp⟩

lemma acquire_tasks (l : Lock τ) (t : τ) :
    (l.acquire t).1.tasks = if (l.acquire t).2 = true then l.tasks else l.tasks++[t] := by
  unfold acquire
  split
  · rfl
  · simp [tasks]

lemma acquire_locked (l : Lock τ) (t : τ) : (l.acquire t).1.locked =
    (l.locked || (l.acquire t).2) := by
  unfold acquire
  split
  · simp
  · simp

lemma acquire_free (h : (l.acquire t).2 = true) : l.locked = false := by
  unfold acquire at h
  split at h
  · rename_i hfree
    simpa using (Bool.and_eq_true_iff.mp hfree).1
  · cases h

lemma Sound.acquire (h : l.Sound) (ht : t ∉ l.tasks) : (l.acquire t).1.Sound := by
  unfold Lock.acquire
  split
  · rename_i hfree
    have hall := (Bool.and_eq_true_iff.mp hfree).2
    refine ⟨h.nodup,h.first,fun w hw hwoken => ?_⟩
    have hcancelled : w.future = .cancelled := by
      simpa using List.all_eq_true.mp hall w hw
    rw [hwoken] at hcancelled
    cases hcancelled
  · refine ⟨?_,?_,?_⟩
    · simp only [tasks,List.map_append,List.map_cons,List.map_nil]
      refine List.nodup_append.mpr ⟨h.nodup,by simp,fun a ha b hb hab => ?_⟩
      rw [List.mem_singleton.mp hb] at hab
      exact ht (hab ▸ ha)
    · intro w hw
      cases hws : l.waiters with
      | nil =>
        rw [hws] at hw
        cases hw
      | cons w₀ ws =>
        rw [hws] at hw
        rcases List.mem_append.mp hw with hold | hnew
        · exact h.first w (by rw [hws]; exact hold)
        · rw [List.mem_singleton.mp hnew]
          simp
    · intro w hw hwoken
      rcases List.mem_append.mp hw with hold | hnew
      · exact h.free w hold hwoken
      · rw [List.mem_singleton.mp hnew] at hwoken
        cases hwoken

lemma wakeUpFirst_tasks (l : Lock τ) : l.wakeUpFirst.tasks = l.tasks := by
  unfold wakeUpFirst tasks
  split
  · rfl
  · rename_i w ws hws
    split
    · simp [hws]
    · rfl

lemma wakeUpFirst_locked (l : Lock τ) : l.wakeUpFirst.locked = l.locked := by
  unfold wakeUpFirst
  split
  · rfl
  · split <;> rfl

lemma Sound.wakeUpFirst (h : l.Sound) (hfree : l.locked = false) : l.wakeUpFirst.Sound := by
  refine ⟨?_,?_,fun w _ _ => (wakeUpFirst_locked l).trans hfree⟩
  · rw [wakeUpFirst_tasks]
    exact h.nodup
  · intro w hw
    unfold Lock.wakeUpFirst at hw
    split at hw
    · exact h.first w hw
    · rename_i w₀ ws hws
      split at hw
      · exact h.first w (by rw [hws]; exact hw)
      · exact h.first w hw

lemma release_some (h : l.locked = true) : l.release =
    some { l with locked := false }.wakeUpFirst :=
  if_pos h

lemma release_tasks {l' : Lock τ} (h : l.release = some l') : l'.tasks = l.tasks ∧
    l'.locked = false := by
  unfold release at h
  split at h
  · cases h
    exact ⟨wakeUpFirst_tasks _,wakeUpFirst_locked _⟩
  · cases h

lemma Sound.release (h : l.Sound) {l' : Lock τ} (hl : l.release = some l') : l'.Sound := by
  unfold Lock.release at hl
  split at hl
  · cases hl
    have hfree : ({ l with locked := false } : Lock τ).Sound := ⟨h.nodup,h.first,fun _ _ _ => rfl⟩
    exact hfree.wakeUpFirst rfl
  · cases hl

lemma Sound.woken_unique (h : l.Sound) {w w' : Waiter τ} (hw : w ∈ l.waiters)
    (hw' : w' ∈ l.waiters) (hwoken : w.future = .woken) (hwoken' : w'.future = .woken) :
    w = w' := by
  cases hws : l.waiters with
  | nil =>
    rw [hws] at hw
    cases hw
  | cons w₀ ws =>
    have hhead : ∀ x ∈ l.waiters, x.future = .woken → x = w₀ := by
      intro x hx hxwoken
      rw [hws] at hx
      rcases List.mem_cons.mp hx with rfl | hx
      · rfl
      · exact absurd hxwoken (h.first x (by rw [hws]; exact hx))
    rw [hhead w hw hwoken,hhead w' hw' hwoken']

lemma tail_filter_subset {β : Type*} (p : β → Bool) (l : List β) : (l.filter p).tail ⊆ l.tail := by
  cases l with
  | nil => simp
  | cons b l =>
    rw [List.tail_cons,List.filter_cons]
    split
    · exact fun x hx => List.mem_of_mem_filter hx
    · exact fun x hx => List.mem_of_mem_filter (List.mem_of_mem_tail hx)

variable [DecidableEq τ]

def cancel (l : Lock τ) (t : τ) : Lock τ :=
  { l with waiters := l.waiters.map fun w => if w.task = t then w.cancel else w }

def remove (l : Lock τ) (t : τ) : Lock τ :=
  { l with waiters := l.waiters.filter fun w => w.task ≠ t }

def abandon (l : Lock τ) (t : τ) : Lock τ :=
  if l.locked then l.remove t else (l.remove t).wakeUpFirst

/-- The rest of `acquire` when the task runs again, and whether it has the lock; none while its
future is pending. -/
def resume (l : Lock τ) (t : τ) : Option (Lock τ × Bool) :=
  match l.waiters.find? fun w => w.task = t with
  | none => none
  | some w =>
    match w.future with
    | .pending => none
    | .cancelled => some (l.abandon t,false)
    | .woken =>
      if w.mustCancel then some (l.abandon t,false)
      else some ({ l.remove t with locked := true },true)

lemma remove_tasks (l : Lock τ) (t : τ) : (l.remove t).tasks = l.tasks.filter (· ≠ t) := by
  simp only [remove,tasks,List.filter_map]
  rfl

lemma Sound.remove (h : l.Sound) (t : τ) : (l.remove t).Sound := by
  refine ⟨?_,?_,?_⟩
  · rw [remove_tasks]
    exact h.nodup.filter _
  · intro w hw
    exact h.first w (tail_filter_subset _ _ hw)
  · intro w hw
    exact h.free w (List.mem_of_mem_filter hw)

lemma abandon_tasks (l : Lock τ) (t : τ) : (l.abandon t).tasks = l.tasks.filter (· ≠ t) := by
  unfold abandon
  split
  · exact remove_tasks l t
  · exact (wakeUpFirst_tasks _).trans (remove_tasks l t)

lemma abandon_locked (l : Lock τ) (t : τ) : (l.abandon t).locked = l.locked := by
  unfold abandon
  split
  · rfl
  · exact wakeUpFirst_locked _

lemma Sound.abandon (h : l.Sound) (t : τ) : (l.abandon t).Sound := by
  unfold Lock.abandon
  split
  · exact h.remove t
  · rename_i hfree
    exact (h.remove t).wakeUpFirst (by simpa [Lock.remove] using hfree)

lemma cancel_tasks (l : Lock τ) (t : τ) : (l.cancel t).tasks = l.tasks := by
  simp only [cancel,tasks,List.map_map]
  refine List.map_congr_left fun w _ => ?_
  simp only [Function.comp_apply]
  split
  · unfold Waiter.cancel
    split <;> rfl
  · rfl

lemma Sound.cancel (h : l.Sound) (t : τ) : (l.cancel t).Sound := by
  have hwoken : ∀ w : Waiter τ, (if w.task = t then w.cancel else w).future = .woken → w.future = .woken := by
    intro w hw
    split at hw
    · exact Waiter.cancel_woken hw
    · exact hw
  refine ⟨?_,?_,?_⟩
  · rw [cancel_tasks]
    exact h.nodup
  · intro w hw hfuture
    simp only [Lock.cancel,← List.map_tail,List.mem_map] at hw
    obtain ⟨w₀,hw₀,rfl⟩ := hw
    exact h.first w₀ hw₀ (hwoken w₀ hfuture)
  · intro w hw hfuture
    simp only [Lock.cancel,List.mem_map] at hw
    obtain ⟨w₀,hw₀,rfl⟩ := hw
    exact h.free w₀ hw₀ (hwoken w₀ hfuture)

theorem resume_cases {l' : Lock τ} {got : Bool} (h : l.resume t = some (l',got)) :
    (got = true ∧ l' = { l.remove t with locked := true } ∧
      ∃ w ∈ l.waiters, w.task = t ∧ w.future = .woken) ∨ (got = false ∧ l' = l.abandon t) := by
  unfold resume at h
  split at h
  · cases h
  rename_i w hw
  have hmem := List.mem_of_find?_eq_some hw
  have htask : w.task = t := by simpa using List.find?_some hw
  split at h
  · cases h
  · cases h
    exact .inr ⟨rfl,rfl⟩
  · rename_i hwoken
    split at h
    · cases h
      exact .inr ⟨rfl,rfl⟩
    · cases h
      exact .inl ⟨rfl,rfl,w,hmem,htask,hwoken⟩

lemma Sound.resume (h : l.Sound) {l' : Lock τ} {got : Bool} (hl : l.resume t = some (l',got)) :
    l'.Sound := by
  rcases resume_cases hl with ⟨-,rfl,w,hw,htask,hwoken⟩ | ⟨-,rfl⟩
  · refine ⟨(h.remove t).nodup,(h.remove t).first,?_⟩
    intro x hx hxwoken
    obtain ⟨hx,hne⟩ := List.mem_filter.mp hx
    obtain rfl := h.woken_unique hx hw hxwoken hwoken
    simp [htask] at hne
  · exact h.abandon t

end Lock

end Memora.AsyncLocks
