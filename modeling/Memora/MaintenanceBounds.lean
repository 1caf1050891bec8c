import Memora.DecayOperations
import Memora.DecimalRounding
import Memora.EngineRuntime

/-! Access, reinforcement, consolidation, daily decay and interference each have a rule of their own
for the importance of a memory, with its own floor or cap. A reinforcement stretches the time to
live from the value it finds. -/
namespace Memora.Decay
open Engine DecimalRounding

inductive Maintenance
  | access (active : Bool) (time : ℚ)
  | reinforce
  | consolidate (pairs : Value)
  | decay (c : DecayConfig) (days : ℕ) (today : String) (time : ℚ)
  | interfere (source : ℤ)

/-- The steps that strengthen a memory; the others weaken it. -/
def Maintenance.strengthens : Maintenance → Bool
  | .access .. | .reinforce | .consolidate _ => true
  | .decay .. | .interfere _ => false

def Maintenance.reinforces : Maintenance → Bool
  | .reinforce => true
  | _ => false

/-- `_persist_runtime_maintenance` on metadata that nobody else writes meanwhile. -/
def persistMaintenance (m delta : Metadata) : Metadata :=
  if isRuntimeMaintenanceDelta m delta then m.update delta else m

/-- What `_apply_consolidation_pair` writes. -/
def consolidationDelta (env : Env) (pairs : Value) (m : Metadata) : Metadata :=
  (Dict.set {} "consolidated_pairs" pairs).set "importance"
    (.num (min (95 / 100) (safeFloat env (getValue m "importance") (1 / 2)+2 / 100)))

def reached (env : DecayEnv) (c : DecayConfig) (days : ℕ) (today : String) (m : Metadata) : Bool :=
  decide (0 < c.decayRate) && decide (0 < days) && !raises env c today m && decays env c today m

def Maintenance.apply (env : DecayEnv) (m : Metadata) : Maintenance → Metadata
  | .access active time => accessed env.toEnv active time m
  | .reinforce => persistMaintenance m (reinforcementDelta env.toEnv m)
  | .consolidate pairs => m.update (consolidationDelta env.toEnv pairs m)
  | .decay c days today time =>
    if reached env c days today m then decayed env c days today time m else m
  | .interfere source => persistMaintenance m (interferenceDelta env.toEnv source m)

def maintained (env : DecayEnv) (m : Metadata) (steps : List Maintenance) : Metadata :=
  steps.foldl (Maintenance.apply env) m

def importanceOf (env : Env) (m : Metadata) : ℚ := safeFloat env (getValue m "importance") (1 / 2)

def storedTtl (env : Env) (m : Metadata) : ℚ := safeFloat env (getValue m "ttl_days") 30

def ttlOf (env : Env) (m : Metadata) : ℚ := if storedTtl env m ≤ 0 then 30 else storedTtl env m

def stretched (env : Env) (count : ℤ) (ttl : ℚ) : ℚ :=
  env.round 2 (min (ttl * 2) (ttl * (105 / 100) ^ (count+1)))

def decayFactor (env : DecayEnv) (c : DecayConfig) (days : ℕ) (time : ℚ) (m : Metadata) : ℚ :=
  (1 - effectiveDecayRate env c time m) ^ days

/-- A step keeps the importance in the unit interval, and moves it its own way. -/
structure Kept (env : DecayEnv) (m : Metadata) (s : Maintenance) : Prop where
  nonneg : 0 ≤ importanceOf env.toEnv (s.apply env m)
  le_one : importanceOf env.toEnv (s.apply env m) ≤ 1
  up : s.strengthens = true → importanceOf env.toEnv m ≤ importanceOf env.toEnv (s.apply env m)
  down : s.strengthens = false → importanceOf env.toEnv (s.apply env m) ≤ importanceOf env.toEnv m

/-- The importance is on the right side of the cap or floor of the step. An interference by the
source of the last one is rejected. -/
def Safe (env : DecayEnv) (m : Metadata) : Maintenance → Prop
  | .access .. | .consolidate _ => importanceOf env.toEnv m ≤ 95 / 100
  | .reinforce => True
  | .decay c days today time => reached env c days today m = true → 1 / 100 ≤ importanceOf env.toEnv m ∧
      env.round 4 (importanceOf env.toEnv m * decayFactor env c days time m) ≤ importanceOf env.toEnv m
  | .interfere source =>
    getValue m "revised_by" = .num source ∨ 5 / 100 ≤ importanceOf env.toEnv m

def Room (env : DecayEnv) (start : ℚ) (m : Metadata) (s : Maintenance) : Prop :=
  s.reinforces = true → stretched env.toEnv (reinforcementCount env.toEnv m)
  (ttlOf env.toEnv m) ≤ 2 * start

variable {env : DecayEnv} {m : Metadata}

lemma reinforcementDelta_eq (env : Env) (m : Metadata) : (reinforcementDelta env m).entries =
      [("reinforcement_count",.num ((reinforcementCount env m : ℚ)+1)),
        ("ttl_days",.num (stretched env (reinforcementCount env m) (ttlOf env m)))] := rfl

lemma interferenceDelta_eq (env : Env) (source : ℤ) (m : Metadata) :
    (interferenceDelta env source m).entries =
      [("importance",.num (interferedImportance env m)),("revised_by",.num source)] := rfl

lemma interference_accepted (source : ℤ) :
    isRuntimeMaintenanceDelta m (interferenceDelta env.toEnv source m) = true ↔
      getValue m "importance" ≠ .num (interferedImportance env.toEnv m) ∧
        getValue m "revised_by" ≠ .num source := by
  rw [isRuntimeMaintenanceDelta,interferenceDelta_eq]
  simp [runtimeMaintenanceKeys]

lemma reinforcementCount_num (env : DecayEnv) {z : ℤ}
    (h : getValue m "reinforcement_count" = .num z) :
    reinforcementCount env.toEnv m = z := by
  have hread : reinforcementCount env.toEnv m = truncate z := by
    rw [reinforcementCount,h]
    by_cases hz : (z : ℚ) = 0
    · simp [hz,safeFloat]
    · simp [Value.truthy,hz,safeFloat]
  rw [hread,truncate_intCast]

/-- A reinforcement is rejected only where it finds the time to live that it computes. -/
theorem reinforcement_accepted : isRuntimeMaintenanceDelta m
    (reinforcementDelta env.toEnv m) = true ↔
      getValue m "ttl_days" ≠
        .num (stretched env.toEnv (reinforcementCount env.toEnv m) (ttlOf env.toEnv m)) := by
  have hcount : getValue m "reinforcement_count" ≠ .num ((reinforcementCount env.toEnv m : ℚ)+1) := by
    intro heq
    have hread := reinforcementCount_num env (z := reinforcementCount env.toEnv m+1)
      (by rw [heq]; push_cast; rfl)
    omega
  rw [isRuntimeMaintenanceDelta,reinforcementDelta_eq]
  simp [runtimeMaintenanceKeys,hcount]

lemma getValue_update (m delta : Metadata) (k : String) :
    getValue (m.update delta) k = ((delta.get? k).or (m.get? k)).getD .null := by
  rw [getValue,Dict.get?_update]

lemma importance_access (env : DecayEnv) (m : Metadata) (active : Bool) (time : ℚ) :
    importanceOf env.toEnv ((Maintenance.access active time).apply env m) =
      env.round 4 (min (95 / 100) (max 0 (min 1 (importanceOf env.toEnv m)) +
        if active then 5 / 100 else 1 / 100)) := by
  simp [Maintenance.apply,accessed,importanceOf,getValue_set,safeFloat,clampFloat]

lemma importance_reinforce (env : DecayEnv) (m : Metadata) :
    importanceOf env.toEnv (Maintenance.reinforce.apply env m) = importanceOf env.toEnv m := by
  simp only [Maintenance.apply,persistMaintenance]
  split
  · rw [importanceOf,getValue_update,reinforcementDelta]
    simp [Dict.get?_set,importanceOf,getValue]
  · rfl

lemma importance_consolidate (env : DecayEnv) (m : Metadata) (pairs : Value) :
    importanceOf env.toEnv ((Maintenance.consolidate pairs).apply env m) =
      min (95 / 100) (importanceOf env.toEnv m+2 / 100) := by
  rw [importanceOf,Maintenance.apply,getValue_update,consolidationDelta]
  simp [safeFloat,importanceOf]

lemma importance_decay (env : DecayEnv) (m : Metadata) (c : DecayConfig) (days : ℕ) (today : String)
    (time : ℚ) :
    importanceOf env.toEnv ((Maintenance.decay c days today time).apply env m) =
      if reached env c days today m then
        max (1 / 100) (env.round 4 (max 0 (min 1 (importanceOf env.toEnv m)) * decayFactor env c days time m))
      else importanceOf env.toEnv m := by
  simp only [Maintenance.apply]
  split
  · simp [decayed,importanceOf,getValue_set,safeFloat,clampFloat,decayFactor]
  · rfl

lemma importance_interfere (env : DecayEnv) (m : Metadata) (source : ℤ) :
    importanceOf env.toEnv ((Maintenance.interfere source).apply env m) =
      if getValue m "revised_by" = .num source then importanceOf env.toEnv m
      else env.round 4 (max (5 / 100) (importanceOf env.toEnv m * (9 / 10))) := by
  simp only [Maintenance.apply,persistMaintenance,interference_accepted]
  by_cases hsame : getValue m "revised_by" = .num source
  · simp [hsame]
  split
  · rw [importanceOf,getValue_update,interferenceDelta]
    simp [Dict.get?_set,safeFloat,interferedImportance,importanceOf]
  · rename_i hkept
    have hstored : getValue m "importance" = .num (interferedImportance env.toEnv m) := by
      by_contra hne
      exact hkept ⟨hne,hsame⟩
    have hsame : importanceOf env.toEnv m = interferedImportance env.toEnv m := by
      rw [importanceOf,hstored]
      rfl
    exact hsame

section Steps
variable (hround : Nearest env.round)
include hround

/-- The rule of an access: below the cap it raises, above it lowers to the cap. -/
theorem raised_bounds {x d : ℚ} (h0 : 0 ≤ x) (hd : 1 / 100 ≤ d) :
    0 ≤ env.round 4 (min (95 / 100) (x+d)) ∧
      env.round 4 (min (95 / 100) (x+d)) ≤ 95 / 100 ∧
      (x ≤ 95 / 100 → x ≤ env.round 4 (min (95 / 100) (x+d))) := by
  have hcap : ((9500 : ℤ) : ℚ) / 10 ^ 4 = 95 / 100 := by norm_num
  have hzero : ((0 : ℤ) : ℚ) / 10 ^ 4 = 0 := by norm_num
  refine ⟨?_,?_,fun hx => ?_⟩
  · have hlow := hround.decimal_le 4 (q := min (95 / 100) (x+d)) (z := 0)
      (by rw [hzero]; exact le_min (by norm_num) (by linarith))
    rwa [hzero] at hlow
  · have hhigh := hround.le_decimal 4 (q := min (95 / 100) (x+d)) (z := 9500)
      (by rw [hcap]; exact min_le_left _ _)
    rwa [hcap] at hhigh
  · rcases le_total (x+d) (95 / 100) with hle | hge
    · rw [min_eq_right hle]
      have hnear := hround.sub_le 4 (q := x+d)
      norm_num at hnear
      linarith
    · rw [min_eq_left hge]
      have hlow := hround.decimal_le 4 (q := 95 / 100) (z := 9500) (le_of_eq hcap)
      rw [hcap] at hlow
      exact hx.trans hlow

/-- The rule of an interference: above the floor it lowers, below it raises to the floor. -/
theorem lowered_bounds {x : ℚ} (h1 : x ≤ 1) : 5 / 100 ≤ env.round 4 (max (5 / 100) (x * (9 / 10))) ∧
      env.round 4 (max (5 / 100) (x * (9 / 10))) ≤ 1 ∧
      (5 / 100 ≤ x → env.round 4 (max (5 / 100) (x * (9 / 10))) ≤ x) := by
  have hfloor : ((500 : ℤ) : ℚ) / 10 ^ 4 = 5 / 100 := by norm_num
  have hone : ((10000 : ℤ) : ℚ) / 10 ^ 4 = 1 := by norm_num
  refine ⟨?_,?_,fun hx => ?_⟩
  · have hlow := hround.decimal_le 4 (q := max (5 / 100) (x * (9 / 10))) (z := 500)
      (by rw [hfloor]; exact le_max_left _ _)
    rwa [hfloor] at hlow
  · have hhigh := hround.le_decimal 4 (q := max (5 / 100) (x * (9 / 10))) (z := 10000)
      (by rw [hone]; exact max_le (by norm_num) (by linarith))
    rwa [hone] at hhigh
  · rcases le_total (x * (9 / 10)) (5 / 100) with hle | hge
    · rw [max_eq_left hle]
      have hhigh := hround.le_decimal 4 (q := 5 / 100) (z := 500) (le_of_eq hfloor.symm)
      rw [hfloor] at hhigh
      exact hhigh.trans hx
    · rw [max_eq_right hge]
      have hnear := hround.le_add 4 (q := x * (9 / 10))
      norm_num at hnear
      linarith

variable (h0 : 0 ≤ importanceOf env.toEnv m) (h1 : importanceOf env.toEnv m ≤ 1)
include h0 h1

lemma kept_access (active : Bool) (time : ℚ) :
    Kept env m (.access active time) ↔ Safe env m (.access active time) := by
  have hread := importance_access env m active time
  rw [min_eq_right h1,max_eq_right h0] at hread
  have hstep : (1 / 100 : ℚ) ≤ if active then 5 / 100 else 1 / 100 := by
    split <;> norm_num
  obtain ⟨hnonneg,hcap,hup⟩ := raised_bounds hround h0 hstep
  rw [← hread] at hnonneg hcap hup
  constructor
  · intro hkept
    exact (hkept.up rfl).trans hcap
  · intro hsafe
    exact ⟨hnonneg,hcap.trans (by norm_num),fun _ => hup hsafe,fun hdown => (nomatch hdown)⟩

omit hround h1 in
lemma kept_consolidate (pairs : Value) : Kept env m (.consolidate pairs) ↔
    Safe env m (.consolidate pairs) := by
  have hread := importance_consolidate env m pairs
  constructor
  · intro hkept
    have hup := hkept.up rfl
    rw [hread] at hup
    exact hup.trans (min_le_left _ _)
  · intro hsafe
    refine ⟨?_,?_,fun _ => ?_,fun hdown => (nomatch hdown)⟩
    · rw [hread]
      exact le_min (by norm_num) (by linarith)
    · rw [hread]
      exact (min_le_left _ _).trans (by norm_num)
    · rw [hread]
      exact le_min hsafe (by linarith)

lemma kept_interfere (source : ℤ) : Kept env m (.interfere source) ↔
    Safe env m (.interfere source) := by
  have hread := importance_interfere env m source
  by_cases hsame : getValue m "revised_by" = .num source
  · rw [if_pos hsame] at hread
    refine ⟨fun _ => .inl hsame,fun _ => ⟨by rw [hread]; exact h0,by rw [hread]; exact h1,
      fun hup => (nomatch hup),fun _ => le_of_eq hread⟩⟩
  rw [if_neg hsame] at hread
  obtain ⟨hfloor,hone,hdown⟩ := lowered_bounds hround h1
  rw [← hread] at hfloor hone hdown
  constructor
  · intro hkept
    exact .inr (hfloor.trans (hkept.down rfl))
  · rintro (hsource | hsafe)
    · exact absurd hsource hsame
    · exact ⟨le_trans (by norm_num) hfloor,hone,fun hup => (nomatch hup),fun _ => hdown hsafe⟩

omit hround in
lemma kept_decay (c : DecayConfig) (days : ℕ) (today : String) (time : ℚ) :
    Kept env m (.decay c days today time) ↔ Safe env m (.decay c days today time) := by
  have hread := importance_decay env m c days today time
  by_cases hreached : reached env c days today m = true
  · rw [if_pos hreached,min_eq_right h1,max_eq_right h0] at hread
    constructor
    · intro hkept _
      have hdown := hkept.down rfl
      rw [hread] at hdown
      exact max_le_iff.mp hdown
    · intro hsafe
      have hdown := max_le_iff.mpr (hsafe hreached)
      rw [← hread] at hdown
      refine ⟨?_,hdown.trans h1,fun hup => (nomatch hup),fun _ => hdown⟩
      rw [hread]
      exact le_max_of_le_left (by norm_num)
  · rw [if_neg hreached] at hread
    refine ⟨fun _ h => absurd h hreached,fun _ => ⟨by rw [hread]; exact h0,by rw [hread]; exact h1,
      fun hup => (nomatch hup),fun _ => le_of_eq hread⟩⟩

/-- A step does what it is for exactly on the right side of its cap or floor. -/
theorem kept_iff (s : Maintenance) : Kept env m s ↔ Safe env m s := by
  cases s with
  | access active time => exact kept_access hround h0 h1 active time
  | reinforce =>
    have hread := importance_reinforce env m
    refine ⟨fun _ => trivial,fun _ => ⟨by rw [hread]; exact h0,by rw [hread]; exact h1,
      fun _ => le_of_eq hread.symm,fun hdown => (nomatch hdown)⟩⟩
  | consolidate pairs => exact kept_consolidate h0 pairs
  | decay c days today time => exact kept_decay h0 h1 c days today time
  | interfere source => exact kept_interfere hround h0 h1 source

end Steps

lemma ttl_other (env : DecayEnv) (m : Metadata) {s : Maintenance} (h : s.reinforces = false) :
    getValue (s.apply env m) "ttl_days" = getValue m "ttl_days" ∧
      getValue (s.apply env m) "reinforcement_count" = getValue m "reinforcement_count" := by
  cases s with
  | access active time => simp [Maintenance.apply,accessed,getValue_set]
  | reinforce => cases h
  | consolidate pairs =>
    simp only [Maintenance.apply,getValue_update,consolidationDelta]
    simp [Dict.get?_set,getValue]
  | decay c days today time =>
    simp only [Maintenance.apply]
    split
    · simp [decayed,getValue_set]
    · simp
  | interfere source =>
    simp only [Maintenance.apply,persistMaintenance]
    split
    · simp only [getValue_update,interferenceDelta]
      simp [Dict.get?_set,getValue]
    · simp

lemma ttl_reinforce : getValue (Maintenance.reinforce.apply env m) "ttl_days" =
      .num (stretched env.toEnv (reinforcementCount env.toEnv m) (ttlOf env.toEnv m)) := by
  simp only [Maintenance.apply,persistMaintenance,reinforcement_accepted]
  split
  · rw [getValue_update,Dict.get?_eq_some.mpr]
    · rfl
    · rw [reinforcementDelta_eq]
      simp
  · rename_i hsame
    exact not_not.mp hsame

lemma storedTtl_step (env : DecayEnv) (m : Metadata) (s : Maintenance) :
    storedTtl env.toEnv (s.apply env m) =
      if s.reinforces then
        stretched env.toEnv (reinforcementCount env.toEnv m) (ttlOf env.toEnv m)
      else storedTtl env.toEnv m := by
  cases hs : s.reinforces with
  | true =>
    cases s with
    | reinforce =>
      rw [storedTtl,ttl_reinforce]
      rfl
    | access | consolidate | decay | interfere => cases hs
  | false =>
    rw [storedTtl,(ttl_other env m hs).1]
    rfl

/-- The time to live stays in its bound exactly as long as each reinforcement has room for it. -/
theorem bounded_iff_room (steps : List Maintenance) {start : ℚ}
    (h : storedTtl env.toEnv m ≤ 2 * start) :
    (∀ c₁ c₂, steps = c₁++c₂ → storedTtl env.toEnv (maintained env m c₁) ≤ 2 * start) ↔
      RunLaws.Along (Maintenance.apply env) (Room env start) m steps := by
  induction steps generalizing m with
  | nil =>
    refine ⟨fun _ => trivial,fun _ c₁ c₂ hsteps => ?_⟩
    rw [(List.append_eq_nil_iff.mp hsteps.symm).1]
    exact h
  | cons s steps ih =>
    have hstep := storedTtl_step env m s
    constructor
    · intro hbound
      have hfirst := hbound [s] steps rfl
      have hroom : Room env start m s := by
        intro hs
        rw [if_pos hs] at hstep
        rw [← hstep]
        exact hfirst
      exact ⟨hroom,(ih hfirst).mp fun c₁ c₂ hsteps => hbound (s::c₁) c₂ (by rw [hsteps]; rfl)⟩
    · rintro ⟨hroom,hrest⟩ c₁ c₂ hsteps
      have hfirst : storedTtl env.toEnv (s.apply env m) ≤ 2 * start := by
        rw [hstep]
        split
        · rename_i hs
          exact hroom hs
        · exact h
      cases c₁ with
      | nil => exact h
      | cons s' c₁ =>
        obtain ⟨rfl,rfl⟩ := List.cons.inj hsteps
        exact (ih hfirst).mpr hrest c₁ c₂ rfl

def ttlAfter (env : Env) (start : ℚ) : ℕ → ℚ
  | 0 => start
  | k+1 => stretched env k (ttlAfter env start k)

lemma stretched_nat (env : Env) (k : ℕ) (ttl : ℚ) :
    stretched env k ttl = env.round 2 (min (ttl * 2) (ttl * (105 / 100) ^ (k+1))) := by
  unfold stretched
  rw [show ((k : ℤ)+1) = ((k+1 : ℕ) : ℤ) by push_cast; rfl,zpow_natCast]

section Growth
variable (hround : Nearest env.round)
include hround

lemma stretched_le {ttl : ℚ} (k : ℕ) : stretched env.toEnv k ttl ≤ ttl *
    (105 / 100) ^ (k+1)+1 / 200 := by
  have hnear := hround.le_add 2 (q := min (ttl * 2) (ttl * (105 / 100) ^ (k+1)))
  have hmin : min (ttl * 2) (ttl * (105 / 100) ^ (k+1)) ≤ ttl * (105 / 100) ^ (k+1) :=
    min_le_right _ _
  rw [stretched_nat]
  linarith

lemma le_stretched {ttl g : ℚ} (k : ℕ) (hg : g ≤ 2) (hpow : g ≤ (105 / 100) ^ (k+1))
    (httl : 0 ≤ ttl) : ttl * g - 1 / 200 ≤ stretched env.toEnv k ttl := by
  have hnear := hround.sub_le 2 (q := min (ttl * 2) (ttl * (105 / 100) ^ (k+1)))
  have hmin : ttl * g ≤ min (ttl * 2) (ttl * (105 / 100) ^ (k+1)) :=
    le_min (mul_le_mul_of_nonneg_left hg httl) (mul_le_mul_of_nonneg_left hpow httl)
  rw [stretched_nat]
  linarith

theorem stretched_gt {ttl : ℚ} (k : ℕ) (httl : 1 / 2 ≤ ttl) : ttl < stretched env.toEnv k ttl := by
  have hpow : (105 / 100 : ℚ) ≤ (105 / 100) ^ (k+1) :=
    le_self_pow₀ (by norm_num) (Nat.succ_ne_zero k)
  have hlow := le_stretched hround k (by norm_num) hpow (by linarith : (0 : ℚ) ≤ ttl)
  linarith

variable {start : ℚ} (hstart : 1 / 2 ≤ start)
include hstart

lemma ttlAfter_ge (k : ℕ) : 1 / 2 ≤ ttlAfter env.toEnv start k := by
  induction k with
  | zero => exact hstart
  | succ k ih => exact ih.trans (stretched_gt hround k ih).le

lemma ttlAfter_mono : Monotone (ttlAfter env.toEnv start) :=
  monotone_nat_of_le_succ fun k => (stretched_gt hround k (ttlAfter_ge hround hstart k)).le

lemma ttlAfter_four : ttlAfter env.toEnv start 4 ≤ 2 * start := by
  have h1 : ttlAfter env.toEnv start 1 ≤ start * (105 / 100) ^ 1+1 / 200 := stretched_le hround 0
  have h2 : ttlAfter env.toEnv start 2 ≤ ttlAfter env.toEnv start 1 * (105 / 100) ^ 2+1 / 200 :=
    stretched_le hround 1
  have h3 : ttlAfter env.toEnv start 3 ≤ ttlAfter env.toEnv start 2 * (105 / 100) ^ 3+1 / 200 :=
    stretched_le hround 2
  have h4 : ttlAfter env.toEnv start 4 ≤ ttlAfter env.toEnv start 3 * (105 / 100) ^ 4+1 / 200 :=
    stretched_le hround 3
  linarith

lemma ttlAfter_five : 2 * start < ttlAfter env.toEnv start 5 := by
  have hgrows : ∀ k, k < 5 → ttlAfter env.toEnv start k * (105 / 100) ^ (k+1) - 1 / 200 ≤
      ttlAfter env.toEnv start (k+1) := by
    intro k hk
    have hle : ((105 : ℚ) / 100) ^ (k+1) ≤ 2 := by
      have hpow : ((105 : ℚ) / 100) ^ (k+1) ≤ (105 / 100) ^ 5 := pow_le_pow_right₀ (by norm_num) (by omega)
      exact hpow.trans (by norm_num)
    exact le_stretched hround k hle le_rfl (le_trans (by norm_num) (ttlAfter_ge hround hstart k))
  have h0 : ttlAfter env.toEnv start 0 = start := rfl
  have h1 := hgrows 0 (by omega)
  have h2 := hgrows 1 (by omega)
  have h3 := hgrows 2 (by omega)
  have h4 := hgrows 3 (by omega)
  have h5 := hgrows 4 (by omega)
  norm_num at h1 h2 h3 h4 h5
  linarith

/-- Twice the time to live of the start is passed with the fifth reinforcement. -/
theorem ttlAfter_bounded (k : ℕ) : ttlAfter env.toEnv start k ≤ 2 * start ↔ k ≤ 4 := by
  constructor
  · intro h
    by_contra hk
    have hmono := ttlAfter_mono hround hstart (show 5 ≤ k by omega)
    exact absurd (ttlAfter_five hround hstart) (not_lt_of_ge (hmono.trans h))
  · intro hk
    exact (ttlAfter_mono hround hstart hk).trans (ttlAfter_four hround hstart)

omit hround hstart in
lemma storedTtl_le (env : Env) (m : Metadata) : storedTtl env m ≤ ttlOf env m := by
  unfold ttlOf
  split
  · linarith
  · exact le_rfl

omit hround hstart in
lemma ttlOf_of_stored {env : Env} {m : Metadata} {ttl : ℚ} (h : storedTtl env m = ttl)
    (hpos : 0 < ttl) : ttlOf env m = ttl := by
  rw [ttlOf,if_neg (by rw [h]; exact not_le_of_gt hpos),h]

end Growth

structure Stage (env : Env) (start : ℚ) (k : ℕ) (m : Metadata) : Prop where
  count : reinforcementCount env m = k
  ttl : ttlOf env m = ttlAfter env start k
  stored : 0 < k → storedTtl env m = ttlAfter env start k

lemma Stage.step (hround : Nearest env.round) {start : ℚ} (hstart : 1 / 2 ≤ start) {k : ℕ}
    (h : Stage env.toEnv start k m) (s : Maintenance) :
    Stage env.toEnv start (k+if s.reinforces then 1 else 0) (s.apply env m) := by
  have hge := ttlAfter_ge hround hstart
  cases hs : s.reinforces with
  | false =>
    obtain ⟨httl,hcount⟩ := ttl_other env m hs
    refine ⟨?_,?_,fun hk => ?_⟩
    · rw [reinforcementCount,hcount]
      exact h.count
    · rw [ttlOf,storedTtl,httl]
      exact h.ttl
    · rw [storedTtl,httl]
      exact h.stored hk
  | true =>
    have hreinforce : s = .reinforce := by
      cases s with
      | reinforce => rfl
      | access | consolidate | decay | interfere => cases hs
    have hnext : stretched env.toEnv (reinforcementCount env.toEnv m) (ttlOf env.toEnv m) =
        ttlAfter env.toEnv start (k+1) := by
      rw [h.count,h.ttl]
      rfl
    have hstored : storedTtl env.toEnv (s.apply env m) = ttlAfter env.toEnv start (k+1) := by
      rw [storedTtl_step,if_pos hs,hnext]
    refine ⟨?_,?_,fun _ => hstored⟩
    · -- the time to live has grown, so the reinforcement is not rejected
      have haccepted : isRuntimeMaintenanceDelta m (reinforcementDelta env.toEnv m) = true := by
        refine reinforcement_accepted.mpr fun heq => ?_
        have hsame : storedTtl env.toEnv m = ttlAfter env.toEnv start (k+1) := by
          rw [storedTtl,heq,hnext]
          rfl
        have hgrown := stretched_gt hround k (hge k)
        have hread := ttlOf_of_stored hsame (lt_of_lt_of_le (by norm_num) (hge (k+1)))
        rw [h.ttl] at hread
        exact absurd hread (ne_of_lt hgrown)
      rw [hreinforce]
      apply reinforcementCount_num env
      have hfound : (reinforcementDelta env.toEnv m).get? "reinforcement_count" =
          some (.num ((reinforcementCount env.toEnv m : ℚ)+1)) := by
        refine Dict.get?_eq_some.mpr ?_
        rw [reinforcementDelta_eq]
        simp
      rw [Maintenance.apply,persistMaintenance,if_pos haccepted,getValue_update,hfound,h.count]
      simp
    · exact ttlOf_of_stored hstored (lt_of_lt_of_le (by norm_num) (hge (k+1)))

lemma Stage.run (hround : Nearest env.round) {start : ℚ} (hstart : 1 / 2 ≤ start) {k : ℕ}
    (h : Stage env.toEnv start k m) (steps : List Maintenance) :
    Stage env.toEnv start (k+steps.countP Maintenance.reinforces) (maintained env m steps) := by
  induction steps generalizing m k with
  | nil => exact h
  | cons s steps ih =>
    have hrest := ih (h.step hround hstart s)
    rw [List.countP_cons,Nat.add_comm (steps.countP _),← Nat.add_assoc]
    exact hrest

/-- From a count of zero and half a day or more, the bound holds for four reinforcements. -/
theorem bounded_iff_four (hround : Nearest env.round) (hcount : reinforcementCount env.toEnv m = 0)
    (hstart : 1 / 2 ≤ ttlOf env.toEnv m) (steps : List Maintenance) : (∀ c₁ c₂, steps = c₁++c₂ →
      storedTtl env.toEnv (maintained env m c₁) ≤ 2 * ttlOf env.toEnv m) ↔
      steps.countP Maintenance.reinforces ≤ 4 := by
  have hfirst : Stage env.toEnv (ttlOf env.toEnv m) 0 m :=
    ⟨hcount,rfl,fun h => absurd h (lt_irrefl 0)⟩
  have hstage : ∀ c, Stage env.toEnv (ttlOf env.toEnv m) (c.countP Maintenance.reinforces)
      (maintained env m c) := fun c => by
    simpa using hfirst.run hround hstart c
  constructor
  · intro hbound
    by_contra hmore
    have hstored := (hstage steps).stored (by omega)
    have hle := hbound steps [] (by simp)
    rw [hstored,ttlAfter_bounded hround hstart] at hle
    exact hmore hle
  · intro hfew c₁ c₂ hsteps
    have hprefix : c₁.countP Maintenance.reinforces ≤ 4 := by
      rw [hsteps,List.countP_append] at hfew
      omega
    calc storedTtl env.toEnv (maintained env m c₁)
        ≤ ttlOf env.toEnv (maintained env m c₁) := storedTtl_le ..
      _ = ttlAfter env.toEnv (ttlOf env.toEnv m) (c₁.countP Maintenance.reinforces) := (hstage c₁).ttl
      _ ≤ 2 * ttlOf env.toEnv m := (ttlAfter_bounded hround hstart _).mpr hprefix

/-- A decay keeps its bounds for an importance of four decimals that is no less than the floor, at a
rate in the unit interval. -/
theorem kept_decay_of_decimal (hround : Nearest env.round) {c : DecayConfig} (days : ℕ)
    (today : String)
    {time : ℚ} {z : ℤ} (hdecimal : importanceOf env.toEnv m = z / 10 ^ 4)
    (hlow : 1 / 100 ≤ importanceOf env.toEnv m) (hhigh : importanceOf env.toEnv m ≤ 1)
    (hrate : 0 ≤ effectiveDecayRate env c time m ∧ effectiveDecayRate env c time m ≤ 1) :
    Kept env m (.decay c days today time) := by
  have hnonneg : 0 ≤ importanceOf env.toEnv m := le_trans (by norm_num) hlow
  have hfactor : decayFactor env c days time m ≤ 1 :=
    pow_le_one₀ (sub_nonneg.mpr hrate.2) (sub_le_self 1 hrate.1)
  have hless := mul_le_of_le_one_right hnonneg hfactor
  refine (kept_iff hround hnonneg hhigh _).mpr fun _ => ⟨hlow,?_⟩
  have hrounded := hround.le_decimal 4 (hless.trans_eq hdecimal)
  rwa [← hdecimal] at hrounded

def roundingEnv : DecayEnv := ⟨{ sampleEnv with round := roundTo },fun _ => false⟩

def memoryOf (importance : ℚ) : Metadata := Dict.set {} "importance" (.num importance)

end Memora.Decay
