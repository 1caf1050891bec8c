import Memora.AsyncLocks
import Memora.CanonicalModels
import Memora.Dict
import Memora.RunLaws

/-! The budget of extra model calls of one request. A use of `budgeted_extra_llm_call` reserves a
slot, lets its caller make the call, and commits or releases the slot, each under the lock of the
budget. Other uses run while one waits for the lock or is inside of its call, where it may fail or
be cancelled. -/
namespace Memora.ExtraLlm
open AsyncLocks
open Canonical (pythonStrip)

/-- The n-th `uuid4().hex`, and `str.casefold`. -/
structure Env where
  uuid : ℕ → String
  distinct : Function.Injective uuid
  casefold : String → String

def unaryEnv : Env where
  uuid n := String.ofList (List.replicate n '0')
  distinct m n h := by simpa using congrArg String.length h
  casefold := id

structure Reservation where
  budgetId : String
  reservationId : String
  feature : String
  deriving DecidableEq

structure Budget where
  budgetId : String
  maxCalls : ℕ
  used : ℕ := 0
  reservations : Dict String String := {}
  lock : Lock ℕ := {}

def Budget.new (budgetId : String) (maxCalls : ℤ) : Budget :=
  { budgetId, maxCalls := maxCalls.toNat }

def Budget.reserved (b : Budget) : ℕ := b.reservations.entries.length

def allowedFeatures : List String :=
  ["llm_query_rewrite","llm_reranker","memory_grounding_judge","profile_extraction",
    "knowledge_extraction","note_generation","reflection_extra_batch","topic_strategy_d"]

def normalizeFeature (env : Env) (feature : String) : String :=
  let normalized := env.casefold (pythonStrip (if feature = "" then "unknown" else feature))
  if normalized ∈ allowedFeatures then normalized else "unknown"

/-- `_take_token`; the token is none where it is no reservation. -/
def Budget.takeToken (b : Budget) (token : Option Reservation) : Option Budget :=
  match token with
  | none => none
  | some t =>
    if t.budgetId ≠ b.budgetId then none
    else match b.reservations.get? t.reservationId with
      | none => none
      | some feature =>
        if feature ≠ t.feature then none
        else some { b with reservations := b.reservations.pop t.reservationId }

def Budget.reserve (feature reservationId : String) (b : Budget) : Budget × Option Reservation :=
  if b.maxCalls ≤ b.used+b.reserved then (b,none)
  else ({ b with reservations := b.reservations.set reservationId feature },
    some ⟨b.budgetId,reservationId,feature⟩)

def Budget.commit (token : Option Reservation) (b : Budget) : Budget × Bool :=
  match b.takeToken token with
  | none => (b,false)
  | some b' => ({ b' with used := b'.used+1 },true)

def Budget.release (token : Option Reservation) (b : Budget) : Budget × Bool :=
  match b.takeToken token with
  | none => (b,false)
  | some b' => (b',true)

/-- The body of `async with self._lock` and the way out of it, once the lock is held. -/
def Budget.exit {α : Type} (b : Budget) (body : Budget → Budget × α) : Budget × α :=
  let (b,result) := body b
  ({ b with lock := b.lock.release.getD b.lock },result)

/-- `async with self._lock` up to its end, or to where `call` waits for the lock.: a free lock is
taken without a pause, where nobody else runs and no cancellation arrives. -/
def Budget.underLock {α : Type} (b : Budget) (call : ℕ) (body : Budget → Budget × α) :
    Budget × Option α :=
  match b.lock.acquire call with
  | (lock,true) =>
    let (b,result) := { b with lock }.exit body
    (b,some result)
  | (lock,false) => ({ b with lock },none)

inductive Ending
  | completed | failed | denied
  deriving DecidableEq

inductive Phase
  | reserving (feature : String)
  | inside
  | committing
  | releasing
  | ended (ending : Ending)
  deriving DecidableEq

/-- A use, with the token it got. Inside without a token it was told `False`. -/
structure Call where
  token : Option Reservation := none
  phase : Phase

structure World where
  budget : Budget
  calls : List Call := []
  drawn : ℕ := 0

/-- A use begins, its body ends or raises, a use that waits for the lock is cancelled, or runs
again. -/
inductive Event
  | enter (feature : String) (allowed : Bool)
  | finish (call : ℕ)
  | fail (call : ℕ)
  | cancel (call : ℕ)
  | resume (call : ℕ)

namespace World
variable (env : Env) (w : World)

def put (budget : Budget) (i : ℕ) (c : Call) : World := { w with budget, calls := w.calls.set i c }

def enter (feature : String) (allowed : Bool) : World :=
  let feature := normalizeFeature env feature
  if allowed = false then { w with calls := w.calls++[{ phase := .inside }] }
  else match w.budget.underLock w.calls.length (Budget.reserve feature (env.uuid w.drawn)) with
    | (budget,none) => { w with budget, calls := w.calls++[{ phase := .reserving feature }] }
    | (budget,some token) =>
      { budget, calls := w.calls++[{ token, phase := .inside }], drawn := w.drawn+1 }

/-- The rest of a use whose body ended, or raised: its commit or release. -/
def leave (i : ℕ) (c : Call) (raised : Bool) : World :=
  if c.token.isNone then w.put w.budget i { c with phase := .ended .denied }
  else match w.budget.underLock i (if raised then Budget.release c.token else Budget.commit c.token)
    with
    | (budget,none) => w.put budget i { c with phase := if raised then .releasing else .committing }
    | (budget,some _) => w.put budget i { c with phase := .ended (if raised then .failed else .completed) }

/-- The rest of a use that waited for the lock and has it. -/
def proceed (i : ℕ) (c : Call) : World :=
  match c.phase with
  | .reserving feature =>
    let (budget,token) := w.budget.exit (Budget.reserve feature (env.uuid w.drawn))
    { w.put budget i { token, phase := .inside } with drawn := w.drawn+1 }
  | .committing => w.put (w.budget.exit (Budget.commit c.token)).1 i { c with phase := .ended .completed }
  | .releasing => w.put (w.budget.exit (Budget.release c.token)).1 i { c with phase := .ended .failed }
  | .inside | .ended _ => w

def step (w : World) : Event → World
  | .enter feature allowed => w.enter env feature allowed
  | .finish i => match w.calls[i]? with
    | some c => if c.phase = .inside then w.leave i c false else w
    | none => w
  | .fail i => match w.calls[i]? with
    | some c => if c.phase = .inside then w.leave i c true else w
    | none => w
  | .cancel i => { w with budget := { w.budget with lock := w.budget.lock.cancel i } }
  | .resume i => match w.calls[i]?,w.budget.lock.resume i with
    | some c,some (lock,true) => { w with budget := { w.budget with lock } }.proceed env i c
    | some c,some (lock,false) => w.put { w.budget with lock } i { c with phase := .ended .failed }
    | _,_ => w

end World

def Call.reserves (c : Call) : Option (String × String) :=
  if c.phase = .inside then c.token.map fun t => (t.reservationId,t.feature) else none

/-- Between two steps nobody holds the lock or waits for it, and the slots reserved are those of the
uses that are inside of their calls. -/
structure World.Sound (env : Env) (maxCalls : ℕ) (w : World) : Prop where
  limit : w.budget.maxCalls = maxCalls
  free : w.budget.lock = {}
  moving : ∀ c ∈ w.calls, c.phase = .inside ∨ ∃ ending, c.phase = .ended ending
  slots : w.budget.reservations.entries = w.calls.filterMap Call.reserves
  room : w.budget.used+w.budget.reserved ≤ maxCalls
  used : w.budget.used = w.calls.countP (·.phase = .ended .completed)
  ids : (w.calls.filterMap fun c => c.token.map Reservation.reservationId).Nodup
  drawn : ∀ c ∈ w.calls, ∀ t, c.token = some t →
    t.budgetId = w.budget.budgetId ∧ ∃ n < w.drawn, t.reservationId = env.uuid n

variable {env : Env} {maxCalls : ℕ} {w : World} {b b' : Budget} {token : Option Reservation}
    {c : Call}
  {ending : Ending} {budget : Budget}

lemma underLock_free {α : Type} {body : Budget → Budget × α} (hfree : b.lock = {}) (call : ℕ)
    (hbody : (body { b with lock := { locked := true } }).1.lock = { locked := true }) :
    b.underLock call body = ({ (body { b with lock := { locked := true } }).1 with lock := {} },
      some (body { b with lock := { locked := true } }).2) := by
  have hacquire : b.lock.acquire call = ({ locked := true },true) := by rw [hfree]; rfl
  simp only [Budget.underLock,hacquire,Budget.exit,hbody]
  rfl

lemma takeToken_none (h : ∀ t, token = some t → t.budgetId = b.budgetId →
    (t.reservationId,t.feature) ∉ b.reservations.entries) : b.takeToken token = none := by
  unfold Budget.takeToken
  cases token with
  | none => rfl
  | some t =>
    dsimp only
    split
    · rfl
    rename_i hid
    cases hget : b.reservations.get? t.reservationId with
    | none => rfl
    | some feature =>
      refine if_pos fun hfeature => ?_
      exact h t rfl (not_not.mp hid) (hfeature ▸ Dict.get?_eq_some.mp hget)

lemma takeToken_some {t : Reservation} (hid : t.budgetId = b.budgetId)
    (h : (t.reservationId,t.feature) ∈ b.reservations.entries) : b.takeToken (some t) =
      some { b with reservations := b.reservations.pop t.reservationId } := by
  simp [Budget.takeToken,hid,Dict.get?_eq_some.mpr h]

lemma reserves_inside (h : c.phase = .inside) :
    c.reserves = c.token.map fun t => (t.reservationId,t.feature) := if_pos h

lemma reserves_ended (h : c.phase = .ended ending) : c.reserves = none :=
  if_neg (by simp [h])

theorem World.Sound.ends (h : w.Sound env maxCalls) {i : ℕ} (hi : w.calls[i]? = some c)
    (hinside : c.phase = .inside)
    (hlimit : budget.maxCalls = w.budget.maxCalls) (hid : budget.budgetId = w.budget.budgetId)
    (hfree : budget.lock = {}) (hslots : budget.reservations.entries =
      w.budget.reservations.entries.filter fun e => c.token.all (e.1 ≠ ·.reservationId))
    (hused : budget.used = w.budget.used+if ending = .completed then 1 else 0)
    (htoken : ending = .completed → c.token.isSome = true) :
    World.Sound env maxCalls (w.put budget i { c with phase := .ended ending }) := by
  obtain ⟨hlt,rfl⟩ := List.getElem?_eq_some_iff.mp hi
  obtain ⟨l₁,l₂,hcalls,-,hset⟩ := @List.exists_of_set _ i
    { w.calls[i] with phase := .ended ending } _ hlt
  generalize w.calls[i] = c at *
  have hkeys := w.budget.reservations.nodup
  have hended : Call.reserves { c with phase := .ended ending } = none := reserves_ended rfl
  have hentries : w.budget.reservations.entries =
      l₁.filterMap Call.reserves++(c.token.map fun t => (t.reservationId,t.feature)).toList++
        l₂.filterMap Call.reserves := by
    rw [h.slots,hcalls,List.filterMap_append,List.filterMap_cons,reserves_inside hinside]
    cases c.token <;> simp
  have hrest : budget.reservations.entries = l₁.filterMap Call.reserves++l₂.filterMap Call.reserves := by
    rw [hslots,hentries]
    cases ht : c.token with
    | none => simp
    | some t =>
      rw [hentries,ht] at hkeys
      simp only [Option.map_some,Option.toList_some,List.append_assoc,List.singleton_append,
        List.map_append,List.map_cons,List.nodup_middle,List.nodup_cons,List.mem_append,not_or] at hkeys
      obtain ⟨⟨h₁,h₂⟩,-⟩ := hkeys
      have hother : ∀ l : List (String × String), t.reservationId ∉ l.map Prod.fst →
          l.filter (fun e => !decide (e.1 = t.reservationId)) = l := by
        intro l hl
        refine List.filter_eq_self.mpr fun e he => ?_
        have hne : e.1 ≠ t.reservationId := fun heq => hl (heq ▸ List.mem_map_of_mem he)
        simpa using hne
      simp [hother _ h₁,hother _ h₂]
  have hroom := h.room
  rw [Budget.reserved,hentries] at hroom
  have hmem : ∀ c' ∈ l₁++{ c with phase := .ended ending }::l₂,
      c' = { c with phase := .ended ending } ∨ c' ∈ w.calls := by
    intro c' hc'
    rw [hcalls]
    simp only [List.mem_append,List.mem_cons] at hc' ⊢
    tauto
  have hin : c ∈ w.calls := by simp [hcalls]
  unfold World.put
  rw [hset]
  refine ⟨hlimit.trans h.limit,hfree,fun c' hc' => ?_,?_,?_,?_,?_,fun c' hc' t ht => ?_⟩
  · rcases hmem c' hc' with rfl | hold
    · exact .inr ⟨ending,rfl⟩
    · exact h.moving c' hold
  · rw [hrest,List.filterMap_append,List.filterMap_cons_none hended]
  · dsimp only
    rw [hused,Budget.reserved,hrest]
    simp only [List.length_append] at hroom ⊢
    split
    · rename_i hcompleted
      obtain ⟨t,ht⟩ := Option.isSome_iff_exists.mp (htoken hcompleted)
      simp only [ht,Option.map_some,Option.toList_some,List.length_singleton] at hroom
      omega
    · omega
  · dsimp only
    rw [hused,h.used,hcalls]
    simp only [List.countP_append,List.countP_cons,hinside,Phase.ended.injEq]
    simp
    omega
  · have hids := h.ids
    rw [hcalls] at hids
    simpa [List.filterMap_append,List.filterMap_cons] using hids
  · rw [hid]
    rcases hmem c' hc' with rfl | hold
    · exact h.drawn c hin t ht
    · exact h.drawn c' hold t ht

theorem World.Sound.begins (h : w.Sound env maxCalls)
    {drawn : ℕ} (hlimit : budget.maxCalls = w.budget.maxCalls)
    (hid : budget.budgetId = w.budget.budgetId)
    (hfree : budget.lock = {}) (hused : budget.used = w.budget.used) (hdrawn : w.drawn ≤ drawn)
    (hslots : token = none ∧ budget.reservations = w.budget.reservations ∨
      w.drawn < drawn ∧ w.budget.used+w.budget.reserved < maxCalls ∧
        ∃ feature, token = some ⟨w.budget.budgetId,env.uuid w.drawn,feature⟩ ∧
          budget.reservations = w.budget.reservations.set (env.uuid w.drawn) feature) :
    World.Sound env maxCalls
      { budget, calls := w.calls++[{ token, phase := .inside }], drawn } := by
  have hnew : ∀ c ∈ w.calls, ∀ t, c.token = some t → t.reservationId ≠ env.uuid w.drawn := by
    intro c hc t ht heq
    obtain ⟨-,n,hn,hid⟩ := h.drawn c hc t ht
    exact absurd (env.distinct (hid.symm.trans heq)) hn.ne
  have hrest : budget.reservations.entries = w.budget.reservations.entries++
      (token.map fun t => (t.reservationId,t.feature)).toList := by
    rcases hslots with ⟨rfl,hsame⟩ | ⟨-,-,feature,rfl,hset⟩
    · simp [hsame]
    · rw [hset]
      refine Dict.assign_of_notMem fun hmem => ?_
      obtain ⟨e,he,hkey⟩ := List.mem_map.mp hmem
      rw [h.slots] at he
      obtain ⟨c,hc,hreserves⟩ := List.mem_filterMap.mp he
      unfold Call.reserves at hreserves
      split at hreserves
      · obtain ⟨t,ht,rfl⟩ := Option.map_eq_some_iff.mp hreserves
        exact hnew c hc t ht hkey
      · cases hreserves
  refine ⟨hlimit.trans h.limit,hfree,fun c hc => ?_,?_,?_,?_,?_,fun c hc t ht => ?_⟩
  · rcases List.mem_append.mp hc with hold | hlast
    · exact h.moving c hold
    · rw [List.mem_singleton.mp hlast]
      exact .inl rfl
  · rw [hrest,h.slots,List.filterMap_append]
    cases token <;> rfl
  · have hroom := h.room
    rw [Budget.reserved] at hroom
    rw [hused,Budget.reserved,hrest,List.length_append]
    rcases hslots with ⟨rfl,-⟩ | ⟨-,hlt,feature,rfl,-⟩
    · simpa using hroom
    · rw [Budget.reserved] at hlt
      simp only [Option.map_some,Option.toList_some,List.length_singleton]
      omega
  · rw [hused,h.used,List.countP_append]
    simp
  · rw [List.filterMap_append,List.nodup_append]
    refine ⟨h.ids,?_,fun a ha b hb hab => ?_⟩
    · cases token <;> simp
    · obtain ⟨c,hc,hca⟩ := List.mem_filterMap.mp ha
      obtain ⟨t,ht,rfl⟩ := Option.map_eq_some_iff.mp hca
      rcases hslots with ⟨rfl,-⟩ | ⟨-,-,feature,rfl,-⟩
      · simp at hb
      · exact hnew c hc t ht (hab.trans (by simpa using hb))
  · dsimp only
    rw [hid]
    rcases List.mem_append.mp hc with hold | hlast
    · obtain ⟨hbudget,n,hn,heq⟩ := h.drawn c hold t ht
      exact ⟨hbudget,n,by omega,heq⟩
    · rw [List.mem_singleton.mp hlast] at ht
      rcases hslots with ⟨rfl,-⟩ | ⟨hlt,-,feature,rfl,-⟩
      · cases ht
      · cases ht
        exact ⟨rfl,w.drawn,hlt,rfl⟩

lemma reserve_lock (feature id : String) (b : Budget) : (b.reserve feature id).1.lock = b.lock := by
  unfold Budget.reserve
  split <;> rfl

lemma World.Sound.enter (h : w.Sound env maxCalls) (feature : String) (allowed : Bool) :
    World.Sound env maxCalls (w.enter env feature allowed) := by
  unfold World.enter
  dsimp only
  split
  · exact h.begins rfl rfl h.free rfl le_rfl (.inl ⟨rfl,rfl⟩)
  rw [underLock_free h.free _ (reserve_lock _ _ _)]
  dsimp only [Budget.reserve]
  split
  · exact h.begins rfl rfl rfl rfl (Nat.le_succ _) (.inl ⟨rfl,rfl⟩)
  · rename_i hroom
    refine h.begins rfl rfl rfl rfl (Nat.le_succ _) (.inr ⟨Nat.lt_succ_self _,?_,_,rfl,rfl⟩)
    rw [← h.limit]
    exact not_le.mp hroom

lemma World.Sound.leave (h : w.Sound env maxCalls) {i : ℕ} (hi : w.calls[i]? = some c)
    (hinside : c.phase = .inside) (raised : Bool) :
    World.Sound env maxCalls (w.leave i c raised) := by
  unfold World.leave
  split
  · rename_i hnone
    have ht := Option.isNone_iff_eq_none.mp hnone
    exact h.ends hi hinside rfl rfl h.free (by simp [ht]) rfl (by simp)
  rename_i hsome
  obtain ⟨t,ht⟩ := Option.ne_none_iff_exists'.mp (by simpa using hsome)
  have hin := List.mem_of_getElem? hi
  have hmem : (t.reservationId,t.feature) ∈ w.budget.reservations.entries := by
    rw [h.slots]
    exact List.mem_filterMap.mpr ⟨c,hin,by rw [reserves_inside hinside,ht]; rfl⟩
  have htake := takeToken_some (b := { w.budget with lock := { locked := true } })
    (h.drawn c hin t ht).1 hmem
  have hpop : (w.budget.reservations.pop t.reservationId).entries =
      w.budget.reservations.entries.filter fun e => c.token.all (e.1 ≠ ·.reservationId) := by
    rw [ht]
    rfl
  have hcommit : Budget.commit c.token { w.budget with lock := { locked := true } } =
    ({ w.budget with
        used := w.budget.used+1
        reservations := w.budget.reservations.pop t.reservationId
        lock := { locked := true } },true) := by
    rw [Budget.commit,ht,htake]
  have hrelease : Budget.release c.token { w.budget with lock := { locked := true } } =
    ({ w.budget with
        reservations := w.budget.reservations.pop t.reservationId
        lock := { locked := true } },true) := by
    rw [Budget.release,ht,htake]
  cases raised with
  | true =>
    rw [if_pos rfl,underLock_free h.free i (by rw [hrelease]),hrelease]
    exact h.ends hi hinside rfl rfl rfl hpop rfl (by simp)
  | false =>
    rw [if_neg (by simp),underLock_free h.free i (by rw [hcommit]),hcommit]
    exact h.ends hi hinside rfl rfl rfl hpop rfl (by simp [ht])

lemma World.Sound.step (h : w.Sound env maxCalls) (event : Event) :
    World.Sound env maxCalls (w.step env event) := by
  cases event with
  | enter feature allowed => exact h.enter feature allowed
  | finish i | fail i =>
    dsimp only [World.step]
    cases hi : w.calls[i]? with
    | none => exact h
    | some c =>
      dsimp only
      split
      · exact h.leave hi ‹_› _
      · exact h
  | cancel i =>
    have hsame : w.budget.lock.cancel i = w.budget.lock := by
      rw [h.free]
      rfl
    dsimp only [World.step]
    rw [hsame]
    exact h
  | resume i =>
    have hnone : w.budget.lock.resume i = none := by
      rw [h.free]
      rfl
    dsimp only [World.step]
    rw [hnone]
    cases w.calls[i]? <;> exact h

/-- A token that is stale or repeated, of another budget or made up, or no reservation at all. -/
def World.Useless (w : World) (token : Option Reservation) : Prop :=
  ∀ t, token = some t → (∃ c ∈ w.calls, c.token = some t ∧ ∃ ending, c.phase = .ended ending) ∨
    ∀ c ∈ w.calls, c.token ≠ some t

lemma eq_of_nodup_filterMap {α β : Type*} {f : α → Option β} {l : List α}
    (h : (l.filterMap f).Nodup)
    {a a' : α} {x : β} (ha : a ∈ l) (ha' : a' ∈ l) (hx : f a = some x) (hx' : f a' = some x) :
    a = a' := by
  by_contra hne
  have hpairs := List.pairwise_filterMap.mp h
  have : Std.Symm fun a a' : α => ∀ y, f a = some y → ∀ z, f a' = some z → y ≠ z :=
    ⟨fun _ _ hab y hy z hz => (hab z hz y hy).symm⟩
  exact hpairs.forall ha ha' hne x hx x hx' rfl

lemma World.Sound.useless (h : w.Sound env maxCalls) (htoken : w.Useless token) (lock : Lock ℕ) :
    { w.budget with lock }.takeToken token = none := by
  refine takeToken_none fun t ht hid hmem => ?_
  rw [h.slots] at hmem
  obtain ⟨c,hc,hreserves⟩ := List.mem_filterMap.mp hmem
  have hinside : c.phase = .inside := by
    by_contra hout
    rw [Call.reserves,if_neg hout] at hreserves
    cases hreserves
  rw [reserves_inside hinside] at hreserves
  obtain ⟨t',ht',heq⟩ := Option.map_eq_some_iff.mp hreserves
  obtain ⟨hreservation,hfeature⟩ := Prod.mk.inj heq
  have hown : t' = t := by
    have hbudget := (h.drawn c hc t' ht').1.trans hid.symm
    cases t
    cases t'
    simp_all
  subst hown
  rcases htoken t' ht with ⟨c',hc',hct,ending,hended⟩ | hforeign
  · have hsame := eq_of_nodup_filterMap h.ids hc hc' (by rw [ht']; rfl) (by rw [hct]; rfl)
    rw [← hsame,hinside] at hended
    cases hended
  · exact hforeign c hc ht'

lemma sound_run (env : Env) (budgetId : String) (maxCalls : ℤ) (events : List Event) :
    World.Sound env maxCalls.toNat (events.foldl (World.step env) { budget := .new budgetId maxCalls }) := by
  refine RunLaws.foldl_invariant (fun _ event h => h.step event) ?_ events
  exact ⟨rfl,rfl,by simp,rfl,Nat.zero_le _,rfl,.nil,by simp⟩

/-- In any interleaving of uses: what is used and reserved stays within the budget, what is used are
the calls that completed, a token that nobody inside of a call holds changes nothing, and where
nobody is inside nothing is reserved. -/
theorem budget_conserved (env : Env) (budgetId : String) (maxCalls : ℤ) (events : List Event) :
    let w := events.foldl (World.step env) { budget := .new budgetId maxCalls }
    (w.budget.used : ℤ)+w.budget.reserved ≤ max 0 maxCalls ∧
      w.budget.used = w.calls.countP (·.phase = .ended .completed) ∧ (∀ token, w.Useless token → ∀ call,
        w.budget.underLock call (Budget.commit token) = (w.budget,some false) ∧
        w.budget.underLock call (Budget.release token) = (w.budget,some false)) ∧
      ((∀ c ∈ w.calls, ∃ ending, c.phase = .ended ending) → w.budget.reserved = 0) := by
  intro w
  have h : w.Sound env maxCalls.toNat := sound_run env budgetId maxCalls events
  refine ⟨?_,h.used,fun token htoken call => ?_,fun hended => ?_⟩
  · have hroom := h.room
    omega
  · have hsame : { w.budget with lock := {} } = w.budget := by rw [← h.free]
    have hcommit : Budget.commit token { w.budget with lock := { locked := true } } =
        ({ w.budget with lock := { locked := true } },false) := by
      rw [Budget.commit,h.useless htoken]
    have hrelease : Budget.release token { w.budget with lock := { locked := true } } =
        ({ w.budget with lock := { locked := true } },false) := by
      rw [Budget.release,h.useless htoken]
    rw [underLock_free h.free call (by rw [hcommit]),underLock_free h.free call (by rw [hrelease]),
      hcommit,hrelease]
    exact ⟨congrArg (·,some false) hsame,congrArg (·,some false) hsame⟩
  · rw [Budget.reserved,h.slots,List.filterMap_eq_nil_iff.mpr,List.length_nil]
    intro c hc
    obtain ⟨ending,hphase⟩ := hended c hc
    exact reserves_ended hphase

/-- Two uses where one call is allowed: the second runs without a token. -/
def twoUses : List Event :=
  [.enter "llm_reranker" true,.enter "topic_strategy_d" true,.finish 0,.finish 1]

theorem budget_conserved_sample :
    let w := twoUses.foldl (World.step unaryEnv) { budget := .new "turn-1" 1 }
    w.budget.used = w.calls.countP (·.phase = .ended .completed) ∧ w.budget.reserved = 0 := by
  intro w
  have hended : ∀ c ∈ w.calls, c.phase = .ended .completed ∨ c.phase = .ended .denied := by
    decide +kernel
  have hconserved := budget_conserved unaryEnv "turn-1" 1 twoUses
  exact ⟨hconserved.2.1,hconserved.2.2.2 fun c hc => (hended c hc).elim (⟨_,·⟩) (⟨_,·⟩)⟩

end Memora.ExtraLlm
