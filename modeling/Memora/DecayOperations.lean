import Memora.EngineUpdates

/-! What one call of the daily decay does to the memories it selects. -/
namespace Memora.Decay
open Engine

/-- Local days and their `%Y-%m-%d` texts. -/
structure Calendar where
  date : ℤ → String
  day : String → Option ℤ
  day_date : ∀ d, day (date d) = some d

structure DecayConfig where
  decayRate : ℚ
  accessWindowDays : ℚ := 30
  maxAccessCount : ℚ := 10
  accessMultiplier : ℚ := 1 / 2
  flashbulbEnabled : Bool := true
  flashbulbThreshold : ℚ := 9 / 10
  typeAware : Bool := true

/-- The `LIKE` test that also selects memories whose importance is null or nested. -/
structure DecayEnv extends Env where
  mentionsImportance : Metadata → Bool

variable (env : DecayEnv)

def typeDecayMultiplier (memoryType : Value) : ℚ :=
  match memoryType with
  | .str s => match env.upper s with
    | "EPISODIC" => 15 / 10
    | "FACTUAL" => 5 / 10
    | "PREFERENCE" => 7 / 10
    | "RELATIONAL" => 6 / 10
    | _ => 1
  | _ => 1

def emotionProtection (intensity : ℚ) : ℚ :=
  if 7 / 10 < intensity then 3 / 10 else if 3 / 10 ≤ intensity then 7 / 10 else 1

variable (c : DecayConfig)

def effectiveDecayRate (time : ℚ) (m : Metadata) : ℚ :=
  let accesses := safeFloat env.toEnv (getValue m "access_count") 0
  let windowStart := time - max 1 c.accessWindowDays * 86400
  let recent : ℚ :=
    if windowStart ≤ safeFloat env.toEnv (getValue m "last_access_time") 0 then 1 else 1 / 2
  let rate := min 1 c.decayRate * (1 - 1 / 2 * min 1 (accesses / max 1 c.maxAccessCount) * recent)
  if c.typeAware then
    min 1 (rate * (typeDecayMultiplier env (getValue m "memory_type") *
      emotionProtection (safeFloat env.toEnv (getValue m "emotional_intensity") (1 / 2))))
  else rate

def selected (m : Metadata) : Bool :=
  getValue m "importance" ≠ .null || env.mentionsImportance m

def flashbulb (m : Metadata) : Bool :=
  c.flashbulbEnabled && c.flashbulbThreshold ≤
  safeFloat env.toEnv (getValue m "emotional_intensity") 0

def decays (today : String) (m : Metadata) : Bool :=
  selected env m && getValue m "last_decay_date" ≠ .str today && !flashbulb env c m

def decayed (days : ℕ) (today : String) (time : ℚ) (m : Metadata) : Metadata :=
  let importance := clampFloat env.toEnv (getValue m "importance") (1 / 2)
  let accesses := safeFloat env.toEnv (getValue m "access_count") 0
  let factor := (1 - effectiveDecayRate env c time m) ^ days
  (((m.set "importance" (.num (max (1 / 100) (env.round 4 (importance * factor))))).set
    "access_count" (.num (truncate (accesses * max 0 (min 1 c.accessMultiplier))))).set
    "last_decay_date" (.str today)).set "last_decay_days" (.num days)

def applyDailyDecay (days : ℕ) (today : String) (time : ℚ) (m : Metadata) : Metadata :=
  if decays env c today m then decayed env c days today time m else m

def raises (today : String) (m : Metadata) : Bool :=
  decays env c today m && c.typeAware && match getValue m "memory_type" with
    | .str _ => false
    | v => v.truthy

variable {env : DecayEnv} {c : DecayConfig} {days : ℕ} {today : String} {time : ℚ}
  {m : Metadata}

lemma getValue_set (k k' : String) (v : Value) :
    getValue (m.set k v) k' = if k' = k then v else getValue m k' := by
  unfold getValue
  rw [Dict.get?_set]
  split <;> rfl

lemma decayed_date : getValue (decayed env c days today time m) "last_decay_date" = .str today := by
  simp [decayed,getValue_set]

lemma decayed_importance : getValue (decayed env c days today time m) "importance" ≠ .null := by
  simp [decayed,getValue_set]

lemma decayed_intensity : getValue (decayed env c days today time m) "emotional_intensity" =
      getValue m "emotional_intensity" := by
  simp [decayed,getValue_set]

lemma flashbulb_decayed : flashbulb env c (decayed env c days today time m) =
    flashbulb env c m := by
  rw [flashbulb,decayed_intensity,flashbulb]

lemma selected_decayed : selected env (decayed env c days today time m) = true := by
  simp [selected,decayed_importance]

end Memora.Decay
