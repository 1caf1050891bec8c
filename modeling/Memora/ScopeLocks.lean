import Memora.AsyncLocks
import Memora.Dict
import Memora.RunLaws

/-! `ScopeLockRegistry` keeps one entry for a key, with a lock and the number of the calls of `hold`
that refer to it. The entry goes with the last of them. An entry is an object: a new one under
an old key is another lock. -/
namespace Memora.ScopeLocks
open AsyncLocks

/-- `_ScopeLockEntry`. -/
structure Entry where
  lock : Lock ℕ := {}
  users : ℤ := 0

/-- A call of `hold` from its registration to its end: it waits for the lock, or holds it. A task
may nest calls, which may end here in any order. -/
structure Visit where
  call : ℕ
  task : ℕ
  key : String
  entry : ℕ
  held : Bool
  deriving DecidableEq

def Visit.taken (v v' : Visit) : Visit := if v' = v then { v with held := true } else v'

/-- The entries by key, the entry objects made so far, and the calls inside `hold`. -/
structure Registry where
  entries : Dict String ℕ := {}
  heap : ℕ → Entry := fun _ => {}
  next : ℕ := 0
  visits : List Visit := []

def Registry.size (r : Registry) : ℕ := r.entries.entries.length

def Registry.store (r : Registry) (e : ℕ) (entry : Entry) : Registry :=
  { r with heap := Function.update r.heap e entry }

def Registry.obtain (r : Registry) (key : String) : Registry × ℕ :=
  match r.entries.get? key with
  | some e => (r,e)
  | none =>
    ({ r with
        entries := r.entries.set key r.next
        heap := Function.update r.heap r.next {}
        next := r.next+1 },r.next)

/-- `hold` up to where it waits or yields. -/
def Registry.enter (r : Registry) (call task : ℕ) (key : String) : Registry :=
  let (r,e) := r.obtain key
  let entry := { r.heap e with users := (r.heap e).users+1 }
  let (lock,held) := entry.lock.acquire call
  let r := r.store e { entry with lock := lock }
  { r with visits := r.visits++[⟨call,task,key,e,held⟩] }

/-- The end of `_release`: the entry is written back, and goes where nobody refers to it. -/
def Registry.settle (r : Registry) (key : String) (e : ℕ) (entry : Entry) : Registry :=
  let r := r.store e entry
  if entry.users ≤ 0 ∧ entry.lock.locked = false ∧ r.entries.get? key = some e then
    { r with entries := r.entries.pop key }
  else r

/-- A lock that is not held raises before anything else is done. -/
def Registry.release (r : Registry) (key : String) (e : ℕ) (held : Bool) : Registry :=
  match if held then (r.heap e).lock.release else some (r.heap e).lock with
  | none => r
  | some lock => r.settle key e { lock := lock, users := (r.heap e).users - 1 }

def Registry.forget (r : Registry) (v : Visit) : Registry :=
  { r with visits := r.visits.filter (· ≠ v) }

inductive Event
  | enter (call task : ℕ) (key : String)
  | cancel (call : ℕ)
  | resume (call : ℕ)
  | leave (call : ℕ)

def Registry.visit? (r : Registry) (call : ℕ) : Option Visit :=
  r.visits.find? fun v => v.call = call

/-- One turn of the event loop; none where it cannot be taken. A call that holds the lock may
leave at any time, be it at the end of its body or with an exception. -/
def step (r : Registry) : Event → Option Registry
  | .enter call task key => if (r.visit? call).isSome then none else some (r.enter call task key)
  | .cancel call =>
    match r.visit? call with
    | none => none
    | some v =>
      if v.held then none
      else some (r.store v.entry
        { r.heap v.entry with lock := (r.heap v.entry).lock.cancel call })
  | .resume call =>
    match r.visit? call with
    | none => none
    | some v =>
      if v.held then none
      else
        match (r.heap v.entry).lock.resume call with
        | none => none
        | some (lock,true) =>
          let r := r.store v.entry { r.heap v.entry with lock := lock }
          some { r with visits := r.visits.map v.taken }
        | some (lock,false) =>
          some (((r.store v.entry { r.heap v.entry with lock := lock }).release v.key v.entry false).forget v)
  | .leave call =>
    match r.visit? call with
    | none => none
    | some v => if v.held then some ((r.release v.key v.entry true).forget v) else none

def run (r : Registry) (events : List Event) : Option Registry := events.foldlM step r

def Registry.inside (r : Registry) (e : ℕ) : List Visit := r.visits.filter fun v => v.entry = e

structure Entry.Agrees (entry : Entry) (inside : List Visit) : Prop where
  sound : entry.lock.Sound
  users : entry.users = inside.length
  waiting : ∀ call, call ∈ entry.lock.tasks ↔ ∃ v ∈ inside, v.call = call ∧ v.held = false
  locked : entry.lock.locked = true ↔ ∃ v ∈ inside, v.held = true
  single : ∀ v ∈ inside, ∀ v' ∈ inside, v.held = true → v'.held = true → v = v'

structure Registry.Valid (r : Registry) : Prop where
  calls : (r.visits.map Visit.call).Nodup
  entry : ∀ v ∈ r.visits, r.entries.get? v.key = some v.entry
  fresh : ∀ key e, r.entries.get? key = some e → e < r.next
  distinct : ∀ key key' e, r.entries.get? key = some e → r.entries.get? key' = some e → key = key'
  used : ∀ key e, r.entries.get? key = some e → r.inside e ≠ []
  agrees : ∀ key e, r.entries.get? key = some e → (r.heap e).Agrees (r.inside e)

lemma valid_empty : ({} : Registry).Valid :=
  ⟨by simp,by simp,by simp,by simp,by simp,by simp⟩

section Entries
variable {entry : Entry} {inside : List Visit} {v : Visit}

lemma eq_of_call {v v' : Visit} (h : (inside.map Visit.call).Nodup) (hv : v ∈ inside)
    (hv' : v' ∈ inside) (hcall : v.call = v'.call) : v = v' :=
  List.inj_on_of_nodup_map h hv hv' hcall

lemma length_filter_ne (h : (inside.map Visit.call).Nodup) (hv : v ∈ inside) :
    ((inside.filter (· ≠ v)).length : ℤ) = inside.length - 1 := by
  have hpos := List.length_pos_of_mem hv
  have herase : inside.filter (· ≠ v) = inside.erase v := by
    rw [h.of_map.erase_eq_filter]
    congr 1
    funext x
    by_cases hx : x = v
    · simp [hx]
    · simp [hx]
  rw [herase,List.length_erase_of_mem hv]
  omega

theorem Entry.Agrees.enter (h : entry.Agrees inside) {call : ℕ}
    (hcall : ∀ v ∈ inside, v.call ≠ call) (task : ℕ) (key : String) (e : ℕ) :
    ({ lock := (entry.lock.acquire call).1, users := entry.users+1 } : Entry).Agrees
      (inside++[⟨call,task,key,e,(entry.lock.acquire call).2⟩]) := by
  have hnew : call ∉ entry.lock.tasks := by
    intro hmem
    obtain ⟨v,hv,hvcall,-⟩ := (h.waiting call).mp hmem
    exact hcall v hv hvcall
  refine ⟨h.sound.acquire hnew,?_,?_,?_,?_⟩
  · simp [h.users]
  · intro c
    rw [Lock.acquire_tasks]
    cases hgot : (entry.lock.acquire call).2 with
    | true => simp [h.waiting c]
    | false =>
      simp only [Bool.false_eq_true,if_false,List.mem_append,List.mem_singleton,h.waiting c]
      constructor
      · rintro (⟨v,hv,hvcall,hheld⟩ | rfl)
        · exact ⟨v,.inl hv,hvcall,hheld⟩
        · exact ⟨_,.inr rfl,rfl,rfl⟩
      · rintro ⟨v,hv | rfl,hvcall,hheld⟩
        · exact .inl ⟨v,hv,hvcall,hheld⟩
        · exact .inr hvcall.symm
  · change (entry.lock.acquire call).1.locked = true ↔ _
    rw [Lock.acquire_locked,Bool.or_eq_true,h.locked]
    simp [or_and_right,exists_or]
  · have hfree : (entry.lock.acquire call).2 = true → ∀ v ∈ inside, v.held ≠ true := by
      intro hgot v hv hheld
      have hlocked := h.locked.mpr ⟨v,hv,hheld⟩
      rw [Lock.acquire_free hgot] at hlocked
      cases hlocked
    intro v hv v' hv' hheld hheld'
    rcases List.mem_append.mp hv with hold | hv
    · rcases List.mem_append.mp hv' with hold' | hv'
      · exact h.single v hold v' hold' hheld hheld'
      · rw [List.mem_singleton.mp hv'] at hheld'
        exact absurd hheld (hfree hheld' v hold)
    · rcases List.mem_append.mp hv' with hold' | hv'
      · rw [List.mem_singleton.mp hv] at hheld
        exact absurd hheld' (hfree hheld v' hold')
      · rw [List.mem_singleton.mp hv,List.mem_singleton.mp hv']

lemma Entry.Agrees.cancel (h : entry.Agrees inside) (call : ℕ) :
    ({ entry with lock := entry.lock.cancel call } : Entry).Agrees inside := by
  refine ⟨h.sound.cancel call,h.users,fun c => ?_,h.locked,h.single⟩
  rw [Lock.cancel_tasks]
  exact h.waiting c

lemma Entry.Agrees.take (h : entry.Agrees inside) (hcalls : (inside.map Visit.call).Nodup)
    (hv : v ∈ inside) {lock : Lock ℕ} (hlock : entry.lock.resume v.call = some (lock,true)) :
    ({ entry with lock := lock } : Entry).Agrees (inside.map v.taken) := by
  have hsound := h.sound.resume hlock
  rcases Lock.resume_cases hlock with ⟨-,rfl,w,hw,-,hwoken⟩ | ⟨hgot,-⟩
  swap
  · cases hgot
  have hfree : ∀ x ∈ inside, x.held ≠ true := by
    intro x hx hheld
    have hlocked := h.locked.mpr ⟨x,hx,hheld⟩
    rw [h.sound.free w hw hwoken] at hlocked
    cases hlocked
  have hheld : ∀ x ∈ inside.map v.taken, x.held = true → x = { v with held := true } := by
    intro x hx hxheld
    obtain ⟨y,hy,rfl⟩ := List.mem_map.mp hx
    by_cases hyv : y = v
    · exact if_pos hyv
    · rw [Visit.taken,if_neg hyv] at hxheld
      exact absurd hxheld (hfree y hy)
  refine ⟨hsound,?_,?_,?_,?_⟩
  · simpa using h.users
  · intro c
    change c ∈ (entry.lock.remove v.call).tasks ↔ _
    rw [Lock.remove_tasks,List.mem_filter,h.waiting c]
    constructor
    · rintro ⟨⟨x,hx,rfl,hxwaits⟩,hne⟩
      have hxv : x ≠ v := fun heq => by simp [heq] at hne
      exact ⟨x,List.mem_map.mpr ⟨x,hx,if_neg hxv⟩,rfl,hxwaits⟩
    · rintro ⟨x,hx,rfl,hxwaits⟩
      obtain ⟨y,hy,rfl⟩ := List.mem_map.mp hx
      by_cases hyv : y = v
      · rw [Visit.taken,if_pos hyv] at hxwaits
        cases hxwaits
      · rw [Visit.taken,if_neg hyv] at hxwaits ⊢
        have hne : y.call ≠ v.call := fun heq => hyv (eq_of_call hcalls hy hv heq)
        exact ⟨⟨y,hy,rfl,hxwaits⟩,by simpa using hne⟩
  · exact ⟨fun _ => ⟨_,List.mem_map.mpr ⟨v,hv,if_pos rfl⟩,rfl⟩,fun _ => rfl⟩
  · intro x hx x' hx' hxheld hxheld'
    rw [hheld x hx hxheld,hheld x' hx' hxheld']

lemma Entry.Agrees.quit (h : entry.Agrees inside) (hcalls : (inside.map Visit.call).Nodup)
    (hv : v ∈ inside) (hwaits : v.held = false) :
    ({ lock := entry.lock.abandon v.call, users := entry.users - 1 } : Entry).Agrees
      (inside.filter (· ≠ v)) := by
  refine ⟨h.sound.abandon v.call,?_,?_,?_,?_⟩
  · rw [length_filter_ne hcalls hv,h.users]
  · intro c
    rw [Lock.abandon_tasks,List.mem_filter,h.waiting c]
    constructor
    · rintro ⟨⟨x,hx,rfl,hxwaits⟩,hne⟩
      have hxv : x ≠ v := fun heq => by simp [heq] at hne
      exact ⟨x,List.mem_filter.mpr ⟨hx,by simpa using hxv⟩,rfl,hxwaits⟩
    · rintro ⟨x,hx,rfl,hxwaits⟩
      obtain ⟨hx,hxv⟩ := List.mem_filter.mp hx
      have hne : x.call ≠ v.call := fun heq => by
        simp [eq_of_call hcalls hx hv heq] at hxv
      exact ⟨⟨x,hx,rfl,hxwaits⟩,by simpa using hne⟩
  · change (entry.lock.abandon v.call).locked = true ↔ _
    rw [Lock.abandon_locked,h.locked]
    constructor
    · rintro ⟨x,hx,hheld⟩
      have hxv : x ≠ v := fun heq => by simp [heq,hwaits] at hheld
      exact ⟨x,List.mem_filter.mpr ⟨hx,by simpa using hxv⟩,hheld⟩
    · rintro ⟨x,hx,hheld⟩
      exact ⟨x,List.mem_of_mem_filter hx,hheld⟩
  · intro x hx x' hx' hheld hheld'
    exact h.single x (List.mem_of_mem_filter hx) x' (List.mem_of_mem_filter hx') hheld hheld'

lemma Entry.Agrees.leave (h : entry.Agrees inside) (hcalls : (inside.map Visit.call).Nodup)
    (hv : v ∈ inside) (hheld : v.held = true) {lock : Lock ℕ}
    (hlock : entry.lock.release = some lock) :
    ({ lock := lock, users := entry.users - 1 } : Entry).Agrees (inside.filter (· ≠ v)) := by
  obtain ⟨htasks,hunlocked⟩ := Lock.release_tasks hlock
  have hothers : ∀ x ∈ inside.filter (· ≠ v), x.held ≠ true := by
    intro x hx hxheld
    obtain ⟨hx,hxv⟩ := List.mem_filter.mp hx
    simp [h.single x hx v hv hxheld hheld] at hxv
  refine ⟨h.sound.release hlock,?_,?_,?_,?_⟩
  · rw [length_filter_ne hcalls hv,h.users]
  · intro c
    rw [htasks,h.waiting c]
    constructor
    · rintro ⟨x,hx,rfl,hwaits⟩
      have hxv : x ≠ v := fun heq => by simp [heq,hheld] at hwaits
      exact ⟨x,List.mem_filter.mpr ⟨hx,by simpa using hxv⟩,rfl,hwaits⟩
    · rintro ⟨x,hx,rfl,hwaits⟩
      exact ⟨x,List.mem_of_mem_filter hx,rfl,hwaits⟩
  · change lock.locked = true ↔ _
    rw [hunlocked]
    constructor
    · intro hcontra
      cases hcontra
    · rintro ⟨x,hx,hxheld⟩
      exact absurd hxheld (hothers x hx)
  · intro x hx _ _ hxheld
    exact absurd hxheld (hothers x hx)

end Entries

variable {r r' : Registry}

variable {v : Visit} {entry : Entry} {event : Event} {e : ℕ} {key : String} {call : ℕ}

lemma mem_inside : v ∈ r.inside e ↔ v ∈ r.visits ∧ v.entry = e := by
  simp [Registry.inside]

lemma visit?_some (h : r.visit? call = some v) : v ∈ r.visits ∧ v.call = call :=
  ⟨List.mem_of_find?_eq_some h,by simpa using List.find?_some h⟩

lemma visit?_none (h : r.visit? call = none) : ∀ v ∈ r.visits, v.call ≠ call := by
  intro v hv
  simpa using List.find?_eq_none.mp h v hv

lemma Registry.Valid.inside_calls (h : r.Valid) (e : ℕ) : ((r.inside e).map Visit.call).Nodup :=
  h.calls.sublist (List.filter_sublist.map _)

lemma Registry.Valid.key_of_entry (h : r.Valid) (hv : v ∈ r.visits)
    (hkey : r.entries.get? key = some v.entry) : v.key = key :=
  h.distinct v.key key v.entry (h.entry v hv) hkey

lemma store_same (r : Registry) (e : ℕ) (entry : Entry) : (r.store e entry).heap e = entry :=
  Function.update_self ..

lemma store_other (r : Registry) {e e' : ℕ} (entry : Entry) (h : e' ≠ e) :
    (r.store e entry).heap e' = r.heap e' := Function.update_of_ne h ..

lemma Registry.Valid.store (h : r.Valid) (hentry : entry.Agrees (r.inside e)) :
    (r.store e entry).Valid := by
  refine ⟨h.calls,h.entry,h.fresh,h.distinct,h.used,fun key e' he' => ?_⟩
  by_cases heq : e' = e
  · subst heq
    rw [store_same]
    exact hentry
  · rw [store_other r entry heq]
    exact h.agrees key e' he'

lemma Visit.taken_call (v v' : Visit) : (v.taken v').call = v'.call := by
  unfold Visit.taken
  split
  · rename_i h
    rw [h]
  · rfl

lemma Visit.taken_key (v v' : Visit) : (v.taken v').key = v'.key := by
  unfold Visit.taken
  split
  · rename_i h
    rw [h]
  · rfl

lemma Visit.taken_entry (v v' : Visit) : (v.taken v').entry = v'.entry := by
  unfold Visit.taken
  split
  · rename_i h
    rw [h]
  · rfl

lemma filter_taken (v : Visit) (visits : List Visit) (e : ℕ) :
    (visits.map v.taken).filter (fun x => x.entry = e) = (visits.filter fun x => x.entry = e).map
    v.taken := by
  rw [List.filter_map]
  congr 1
  refine List.filter_congr fun x _ => ?_
  simp [Visit.taken_entry]

lemma Registry.Valid.take (h : r.Valid) (hentry : entry.Agrees ((r.inside v.entry).map v.taken)) :
    ({ r.store v.entry entry with visits := r.visits.map v.taken } : Registry).Valid := by
  refine ⟨?_,?_,h.fresh,h.distinct,?_,?_⟩
  · have hcalls : (r.visits.map v.taken).map Visit.call = r.visits.map Visit.call := by
      rw [List.map_map]
      exact List.map_congr_left fun x _ => v.taken_call x
    rw [hcalls]
    exact h.calls
  · intro x hx
    obtain ⟨y,hy,rfl⟩ := List.mem_map.mp hx
    rw [v.taken_key,v.taken_entry]
    exact h.entry y hy
  · intro key e he hnil
    rw [Registry.inside,filter_taken,List.map_eq_nil_iff] at hnil
    exact h.used key e he hnil
  · intro key e he
    rw [Registry.inside,filter_taken]
    by_cases heq : e = v.entry
    · rw [heq,store_same]
      exact hentry
    · rw [store_other r entry heq]
      have hsame : (r.inside e).map v.taken = r.inside e := by
        refine List.map_congr_left (fun x hx => ?_) |>.trans (List.map_id _)
        have hxv : x ≠ v := fun hxv => heq (by rw [← (mem_inside.mp hx).2,hxv])
        exact if_neg hxv
      change (r.heap e).Agrees ((r.inside e).map v.taken)
      rw [hsame]
      exact h.agrees key e he

/-- What `obtain` leaves: the key has an entry that agrees with its calls, the other keys have
theirs. -/
structure Obtained (r : Registry) (key : String) (r' : Registry) (e : ℕ) : Prop where
  visits : r'.visits = r.visits
  found : r'.entries.get? key = some e
  keys : ∀ key', key' ≠ key → r'.entries.get? key' = r.entries.get? key'
  heap : ∀ e', e' ≠ e → r'.heap e' = r.heap e'
  kept : ∀ e', r.entries.get? key = some e' → e' = e
  other : ∀ key' e', key' ≠ key → r.entries.get? key' = some e' → e' ≠ e
  next : e < r'.next ∧ r.next ≤ r'.next
  agrees : (r'.heap e).Agrees (r.inside e)

lemma obtain_obtained (h : r.Valid) (key : String) :
    Obtained r key (r.obtain key).1 (r.obtain key).2 := by
  unfold Registry.obtain
  cases hkey : r.entries.get? key with
  | some e =>
    refine ⟨rfl,hkey,fun _ _ => rfl,fun _ _ => rfl,fun e' he' => ?_,fun key' e' hne he' => ?_,
      ⟨h.fresh key e hkey,le_rfl⟩,h.agrees key e hkey⟩
    · exact (Option.some.inj (hkey.symm.trans he')).symm
    · rintro rfl
      exact hne (h.distinct key' key e' he' hkey)
  | none =>
    have hnobody : r.inside r.next = [] := by
      refine List.filter_eq_nil_iff.mpr fun v hv => ?_
      have hlt := h.fresh v.key v.entry (h.entry v hv)
      simp only [decide_eq_true_eq]
      omega
    refine ⟨rfl,Dict.get?_set_self,fun key' hne => Dict.get?_set_of_ne hne,
      fun e' hne => Function.update_of_ne hne ..,fun e' he' => ?_,fun key' e' _ he' => ?_,
      ⟨Nat.lt_succ_self _,Nat.le_succ _⟩,?_⟩
    · rw [hkey] at he'
      cases he'
    · exact Nat.ne_of_lt (h.fresh key' e' he')
    · change (Function.update r.heap r.next {} r.next).Agrees _
      rw [Function.update_self,hnobody]
      exact ⟨Lock.sound_empty,rfl,by simp [Lock.tasks],by simp,by simp⟩

theorem Registry.Valid.enter (h : r.Valid) (hcall : ∀ v ∈ r.visits, v.call ≠ call)
    (task : ℕ) (key : String) : (r.enter call task key).Valid := by
  have hobtained := obtain_obtained h key
  unfold Registry.enter
  generalize r.obtain key = after at hobtained
  obtain ⟨r₁,e⟩ := after
  simp only at hobtained ⊢
  have hnew := hobtained.agrees.enter (fun v hv => hcall v (mem_inside.mp hv).1) task key e
  generalize (r₁.heap e).lock.acquire call = acquired at hnew ⊢
  obtain ⟨lock,held⟩ := acquired
  simp only [Registry.store] at hnew ⊢
  have hinside : ∀ e', e' ≠ e → (r₁.visits++[(⟨call,task,key,e,held⟩ : Visit)]).filter (fun v => v.entry = e') =
        r.inside e' := by
    intro e' hne
    simp [hobtained.visits,Registry.inside,Ne.symm hne]
  have hentry : ∀ key' e', r₁.entries.get? key' = some e' → (key' = key ∧ e' = e) ∨
      (key' ≠ key ∧ e' ≠ e ∧ r.entries.get? key' = some e') := by
    intro key' e' he'
    by_cases hkey : key' = key
    · subst hkey
      rw [hobtained.found] at he'
      exact .inl ⟨rfl,(Option.some.inj he').symm⟩
    · rw [hobtained.keys key' hkey] at he'
      exact .inr ⟨hkey,hobtained.other key' e' hkey he',he'⟩
  refine ⟨?_,?_,?_,?_,?_,?_⟩
  · simp only [hobtained.visits,List.map_append]
    refine List.nodup_append.mpr ⟨h.calls,by simp,fun a ha b hb hab => ?_⟩
    obtain ⟨v,hv,rfl⟩ := List.mem_map.mp ha
    rw [List.mem_singleton.mp hb] at hab
    exact hcall v hv hab
  · intro v hv
    rcases List.mem_append.mp hv with hold | hv
    · rw [hobtained.visits] at hold
      have hvr := h.entry v hold
      by_cases hkey : v.key = key
      · rw [hkey] at hvr ⊢
        rw [hobtained.kept _ hvr]
        exact hobtained.found
      · exact (hobtained.keys v.key hkey).trans hvr
    · rw [List.mem_singleton.mp hv]
      exact hobtained.found
  · intro key' e' he'
    rcases hentry key' e' he' with ⟨-,rfl⟩ | ⟨-,-,hold⟩
    · exact hobtained.next.1
    · exact lt_of_lt_of_le (h.fresh key' e' hold) hobtained.next.2
  · intro key₁ key₂ e' he₁ he₂
    rcases hentry key₁ e' he₁ with ⟨hkey₁,hsame⟩ | ⟨-,hother,hold₁⟩
    · rcases hentry key₂ e' he₂ with ⟨hkey₂,-⟩ | ⟨-,hother,-⟩
      · rw [hkey₁,hkey₂]
      · exact absurd hsame hother
    · rcases hentry key₂ e' he₂ with ⟨-,hsame⟩ | ⟨-,-,hold₂⟩
      · exact absurd hsame hother
      · exact h.distinct key₁ key₂ e' hold₁ hold₂
  · intro key' e' he' hnil
    rcases hentry key' e' he' with ⟨-,rfl⟩ | ⟨-,hother,hold⟩
    · simp [Registry.inside] at hnil
    · exact h.used key' e' hold ((hinside e' hother).symm.trans hnil)
  · intro key' e' he'
    rcases hentry key' e' he' with ⟨-,rfl⟩ | ⟨-,hother,hold⟩
    · simpa [Registry.inside,hobtained.visits] using hnew
    · change (Function.update r₁.heap e _ e').Agrees (List.filter _ _)
      rw [hinside e' hother,Function.update_of_ne hother,hobtained.heap e' hother]
      exact h.agrees key' e' hold

theorem inside_forget (r : Registry) (v : Visit) (e : ℕ) :
    (r.forget v).inside e = (r.inside e).filter (· ≠ v) := by
  exact List.filter_comm ..

lemma inside_forget_other (r : Registry) (h : e ≠ v.entry) : (r.forget v).inside e = r.inside e := by
  rw [inside_forget]
  refine List.filter_eq_self.mpr fun x hx => ?_
  have hne : x ≠ v := fun hxv => h (by rw [← (mem_inside.mp hx).2,hxv])
  simpa using hne

lemma settle_eq (h : r.Valid) (hv : v ∈ r.visits) {inside : List Visit}
    (hentry : entry.Agrees inside) : r.settle v.key v.entry entry =
      if inside = [] then { r.store v.entry entry with entries := r.entries.pop v.key }
      else r.store v.entry entry := by
  have hcond : (entry.users ≤ 0 ∧ entry.lock.locked = false ∧
      (r.store v.entry entry).entries.get? v.key = some v.entry) ↔ inside = [] := by
    constructor
    · rintro ⟨husers,-,-⟩
      rw [hentry.users] at husers
      exact List.eq_nil_of_length_eq_zero (by omega)
    · rintro rfl
      refine ⟨by simp [hentry.users],?_,h.entry v hv⟩
      refine Bool.eq_false_iff.mpr fun hlocked => ?_
      obtain ⟨x,hx,-⟩ := hentry.locked.mp hlocked
      cases hx
  by_cases hnil : inside = []
  · rw [if_pos hnil]
    exact if_pos (hcond.mpr hnil)
  · rw [if_neg hnil]
    exact if_neg fun hc => hnil (hcond.mp hc)

lemma Registry.Valid.settle (h : r.Valid) (hv : v ∈ r.visits)
    (hentry : entry.Agrees ((r.inside v.entry).filter (· ≠ v))) :
    ((r.settle v.key v.entry entry).forget v).Valid := by
  have hcalls : (((r.forget v).visits).map Visit.call).Nodup :=
    h.calls.sublist (List.filter_sublist.map _)
  have hagrees : ∀ key e, r.entries.get? key = some e →
      ((r.store v.entry entry).heap e).Agrees ((r.forget v).inside e) := by
    intro key e he
    by_cases heq : e = v.entry
    · rw [heq,store_same,inside_forget]
      exact hentry
    · rw [store_other r entry heq,inside_forget_other r heq]
      exact h.agrees key e he
  rw [settle_eq h hv hentry]
  split
  · rename_i hnil
    have hpop : ∀ key e, (r.entries.pop v.key).get? key = some e →
        r.entries.get? key = some e ∧ key ≠ v.key := fun key e he => Dict.get?_pop.mp he
    refine ⟨hcalls,?_,?_,?_,?_,?_⟩
    · intro x hx
      obtain ⟨hx,hxv⟩ := List.mem_filter.mp hx
      refine Dict.get?_pop.mpr ⟨h.entry x hx,fun hkey => ?_⟩
      have hentries : x.entry = v.entry := by
        have hvkey := h.entry v hv
        rw [← hkey] at hvkey
        exact Option.some.inj ((h.entry x hx).symm.trans hvkey)
      have hmem : x ∈ (r.inside v.entry).filter (· ≠ v) :=
        List.mem_filter.mpr ⟨mem_inside.mpr ⟨hx,hentries⟩,hxv⟩
      rw [hnil] at hmem
      cases hmem
    · exact fun key e he => h.fresh key e (hpop key e he).1
    · exact fun key key' e he he' => h.distinct key key' e (hpop key e he).1 (hpop key' e he').1
    · intro key e he hempty
      obtain ⟨he,hne⟩ := hpop key e he
      have hother : e ≠ v.entry := by
        rintro rfl
        exact hne (h.key_of_entry hv he).symm
      exact h.used key e he ((inside_forget_other r hother).symm.trans hempty)
    · exact fun key e he => hagrees key e (hpop key e he).1
  · rename_i hsome
    refine ⟨hcalls,fun x hx => h.entry x (List.mem_of_mem_filter hx),h.fresh,h.distinct,
      fun key e he hempty => ?_,hagrees⟩
    by_cases heq : e = v.entry
    · rw [heq,inside_forget] at hempty
      exact hsome hempty
    · exact h.used key e he ((inside_forget_other r heq).symm.trans hempty)

theorem settle_of_leave (h : r.Valid) (hv : v ∈ r.visits) (hheld : v.held = true) :
    ∃ entry : Entry, entry.Agrees ((r.inside v.entry).filter (· ≠ v)) ∧
      r.release v.key v.entry true = r.settle v.key v.entry entry := by
  have hagrees := h.agrees v.key v.entry (h.entry v hv)
  have hmem : v ∈ r.inside v.entry := mem_inside.mpr ⟨hv,rfl⟩
  have hlock := Lock.release_some (hagrees.locked.mpr ⟨v,hmem,hheld⟩)
  refine ⟨_,hagrees.leave (h.inside_calls _) hmem hheld hlock,?_⟩
  unfold Registry.release
  rw [if_pos rfl,hlock]

lemma settle_of_quit (h : r.Valid) (hv : v ∈ r.visits) (hwaits : v.held = false) :
    ∃ entry : Entry, entry.Agrees ((r.inside v.entry).filter (· ≠ v)) ∧
    (r.store v.entry { r.heap v.entry with
        lock := (r.heap v.entry).lock.abandon v.call }).release v.key v.entry false =
        r.settle v.key v.entry entry := by
  have hagrees := h.agrees v.key v.entry (h.entry v hv)
  have hmem : v ∈ r.inside v.entry := mem_inside.mpr ⟨hv,rfl⟩
  refine ⟨_,hagrees.quit (h.inside_calls _) hmem hwaits,?_⟩
  simp [Registry.release,Registry.settle,Registry.store]

/-- A step lets a call in, changes the lock of a call inside, gives it to one, or ends a call. -/
theorem step_cases (h : r.Valid) (hstep : step r event = some r') :
    (∃ call task key, r' = r.enter call task key ∧ ∀ v ∈ r.visits, v.call ≠ call) ∨
    (∃ v ∈ r.visits, ∃ entry : Entry, entry.Agrees (r.inside v.entry) ∧ r' = r.store v.entry entry) ∨
    (∃ v ∈ r.visits, ∃ entry : Entry, entry.Agrees ((r.inside v.entry).map v.taken) ∧
      r' = { r.store v.entry entry with visits := r.visits.map v.taken }) ∨
    (∃ v ∈ r.visits, ∃ entry : Entry, entry.Agrees ((r.inside v.entry).filter (· ≠ v)) ∧
      r' = (r.settle v.key v.entry entry).forget v) := by
  cases event with
  | enter call task key =>
    simp only [step] at hstep
    split at hstep
    · cases hstep
    · rename_i hnone
      cases hstep
      exact .inl ⟨call,task,key,rfl,visit?_none (by simpa using hnone)⟩
  | cancel call =>
    simp only [step] at hstep
    split at hstep
    · cases hstep
    · rename_i v hvisit
      obtain ⟨hv,-⟩ := visit?_some hvisit
      split at hstep
      · cases hstep
      · cases hstep
        have hagrees := h.agrees v.key v.entry (h.entry v hv)
        exact .inr (.inl ⟨v,hv,_,hagrees.cancel call,rfl⟩)
  | resume call =>
    simp only [step] at hstep
    split at hstep
    · cases hstep
    · rename_i v hvisit
      obtain ⟨hv,rfl⟩ := visit?_some hvisit
      have hagrees := h.agrees v.key v.entry (h.entry v hv)
      have hmem : v ∈ r.inside v.entry := mem_inside.mpr ⟨hv,rfl⟩
      split at hstep
      · cases hstep
      · rename_i hheld
        split at hstep
        · cases hstep
        · rename_i lock hlock
          cases hstep
          have htaken := hagrees.take (h.inside_calls _) hmem hlock
          exact .inr (.inr (.inl ⟨v,hv,_,htaken,rfl⟩))
        · rename_i lock hlock
          cases hstep
          rcases Lock.resume_cases hlock with ⟨hgot,-⟩ | ⟨-,rfl⟩
          · cases hgot
          · obtain ⟨entry,hentry,heq⟩ := settle_of_quit h hv (Bool.eq_false_iff.mpr hheld)
            exact .inr (.inr (.inr ⟨v,hv,entry,hentry,by rw [heq]⟩))
  | leave call =>
    simp only [step] at hstep
    split at hstep
    · cases hstep
    · rename_i v hvisit
      obtain ⟨hv,-⟩ := visit?_some hvisit
      split at hstep
      · rename_i hheld
        cases hstep
        obtain ⟨entry,hentry,heq⟩ := settle_of_leave h hv hheld
        exact .inr (.inr (.inr ⟨v,hv,entry,hentry,by rw [heq]⟩))
      · cases hstep

lemma step_valid (h : r.Valid) (hstep : step r event = some r') : r'.Valid := by
  rcases step_cases h hstep with ⟨call,task,key,rfl,hcall⟩ | ⟨v,hv,entry,hentry,rfl⟩ |
    ⟨v,hv,entry,hentry,rfl⟩ | ⟨v,hv,entry,hentry,rfl⟩
  · exact h.enter hcall task key
  · exact h.store hentry
  · exact h.take hentry
  · exact h.settle hv hentry

lemma run_valid {events : List Event} (h : run {} events = some r) : r.Valid :=
  RunLaws.foldlM_invariant (fun _ _ _ _ hstep hr => step_valid hr hstep) valid_empty h

lemma Registry.Valid.exclusive (h : r.Valid) {v v' : Visit} (hv : v ∈ r.visits)
    (hv' : v' ∈ r.visits) (hkey : v.key = v'.key) (hheld : v.held = true)
    (hheld' : v'.held = true) : v = v' := by
  have hentry := h.entry v hv
  have hsame : v'.entry = v.entry := by
    rw [hkey] at hentry
    exact Option.some.inj ((h.entry v' hv').symm.trans hentry)
  have hagrees := h.agrees v.key v.entry (h.entry v hv)
  exact hagrees.single v (mem_inside.mpr ⟨hv,rfl⟩) v' (mem_inside.mpr ⟨hv',hsame⟩) hheld hheld'

lemma step_entries (h : r.Valid) (hstep : step r event = some r')
    (hentry : r.entries.get? key = some e) :
    r'.entries.get? key = some e ∨ (r'.entries.get? key = none ∧ ∀ v ∈ r'.visits, v ∈ r.visits) := by
  rcases step_cases h hstep with ⟨call,task,key',rfl,-⟩ | ⟨v,-,entry,-,rfl⟩ |
    ⟨v,-,entry,-,rfl⟩ | ⟨v,hv,entry,hagrees,rfl⟩
  · have hobtained := obtain_obtained h key'
    left
    change (r.obtain key').1.entries.get? key = some e
    by_cases hkey : key = key'
    · subst hkey
      rw [hobtained.found,hobtained.kept e hentry]
    · rw [hobtained.keys key hkey,hentry]
  · exact .inl hentry
  · exact .inl hentry
  · rw [settle_eq h hv hagrees]
    split
    · by_cases hkey : key = v.key
      · refine .inr ⟨?_,fun x hx => List.mem_of_mem_filter hx⟩
        refine Option.eq_none_iff_forall_ne_some.mpr fun e' he' => ?_
        exact (Dict.get?_pop.mp he').2 hkey
      · exact .inl (Dict.get?_pop.mpr ⟨hentry,hkey⟩)
    · exact .inl hentry

/-- An entry that a step removes has no call, neither under its key nor at the object. -/
theorem removed_unused (h : r.Valid) (hstep : step r event = some r')
    (hentry : r.entries.get? key = some e)
    (hremoved : r'.entries.get? key ≠ some e) :
    ∀ v ∈ r'.visits, v.key ≠ key ∧ v.entry ≠ e := by
  have hvalid := step_valid h hstep
  rcases step_entries h hstep hentry with hkept | ⟨hnone,hold⟩
  · exact absurd hkept hremoved
  intro v hv
  have hkey : v.key ≠ key := by
    rintro rfl
    have hfound := hvalid.entry v hv
    rw [hnone] at hfound
    cases hfound
  refine ⟨hkey,?_⟩
  rintro rfl
  exact hkey (h.key_of_entry (hold v hv) hentry)

lemma Registry.Valid.empty (h : r.Valid) (hnobody : r.visits = []) : r.size = 0 := by
  have hnone : ∀ key, r.entries.get? key = none := by
    intro key
    refine Option.eq_none_iff_forall_ne_some.mpr fun e he => h.used key e he ?_
    simp [Registry.inside,hnobody]
  have hempty := Dict.isEmpty_iff.mpr hnone
  unfold Registry.size
  rw [List.isEmpty_iff.mp hempty]
  rfl

/-- In every order of turns, on any keys: two calls that hold the lock of one key are the same, a
step removes an entry only if no call holds or waits for it, and with nobody inside the registry
is empty. -/
theorem hold_serialises (events : List Event) (r : Registry) (h : run {} events = some r) :
    (∀ v ∈ r.visits, ∀ v' ∈ r.visits, v.key = v'.key → v.held = true → v'.held = true → v = v') ∧
      (∀ event r', step r event = some r' → ∀ key e, r.entries.get? key = some e →
        r'.entries.get? key ≠ some e → ∀ v ∈ r'.visits, v.key ≠ key ∧ v.entry ≠ e) ∧
      (r.visits = [] → r.size = 0) := by
  have hvalid := run_valid h
  refine ⟨fun v hv v' hv' => hvalid.exclusive hv hv',?_,hvalid.empty⟩
  intro event r' hstep key e
  exact removed_unused hvalid hstep

/-- Three calls of one key: the second is cancelled after it was woken, the third gets the lock,
and the entry goes with it. -/
def sampleEvents : List Event :=
  [.enter 1 1 "a",.enter 2 2 "a",.enter 3 3 "a",.leave 1,.cancel 2,.resume 2,.resume 3, .leave 3]

theorem hold_serialises_sample :
    ∃ r, run {} sampleEvents = some r ∧ r.size = 0 := by
  have hsome : (run {} sampleEvents).isSome = true := by decide +kernel
  obtain ⟨r,hr⟩ := Option.isSome_iff_exists.mp hsome
  refine ⟨r,hr,(hold_serialises sampleEvents r hr).2.2 ?_⟩
  have hnobody : (run {} sampleEvents).all (fun r => r.visits.isEmpty) = true := by decide +kernel
  rw [hr] at hnobody
  simpa using hnobody

end Memora.ScopeLocks
