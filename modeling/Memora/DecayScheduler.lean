import Memora.DecayOperations
import Memora.RowTable
import Memora.RunLaws

/-! A run decays the memories in one transaction and records the day in a file of its own
afterwards; the days it covers are counted from the recorded day. -/
namespace Memora.Decay
open Engine

/-- The documents, the recorded day, and beside them the decay-days applied so far, one entry for
each memory and run. -/
structure World where
  rows : List (ℕ × Metadata) := []
  lastDecayDate : Option String := none
  applied : List (ℕ × ℕ) := []

def World.empty : World := {}

inductive Cut
  | beforeDecay | afterDecay
  deriving DecidableEq

/-- One run: the days its clock readings fall on, what the state file and the decay transaction do,
and where the run is cut off. -/
structure DecayRun where
  checked : ℤ
  missed : ℤ
  decayed : ℤ
  saved : ℤ
  time : ℚ := 0
  readable : Bool := true
  readableAgain : Bool := true
  commits : Bool := true
  cut : Option Cut := none
  saves : Bool := true

inductive Step
  | add (id : ℕ) (m : Metadata)
  | remove (id : ℕ)
  | run (r : DecayRun)

variable (env : DecayEnv) (cal : Calendar) (c : DecayConfig)

/-- `_calculate_missed_days`. -/
def missedDays (last : Option String) (today : ℤ) : ℕ :=
  match last.bind cal.day with
  | none => 0
  | some d => (today - d - 1).toNat

/-- `apply_daily_decay` over the table; a call that fails changes nothing. -/
def World.decay (w : World) (days : ℕ) (today : String) (time : ℚ) : World :=
  if w.rows.any fun e => raises env c today e.2 then w
  else { w with
    rows := w.rows.map fun e => (e.1,applyDailyDecay env c days today time e.2)
    applied := w.applied++(w.rows.filter fun e => decays env c today e.2).map fun e => (e.1,days) }

/-- The decay step of `_execute_decay`, whose result nobody looks at. -/
def World.decayStep (w : World) (days : ℕ) (r : DecayRun) : World :=
  if 0 < c.decayRate && r.commits then w.decay env c days (cal.date r.decayed) r.time else w

def World.executeDecay (w : World) (days : ℕ) (r : DecayRun) : World :=
  if r.cut = some .beforeDecay then w
  else
    let w₁ := w.decayStep env cal c days r
    if r.cut = some .afterDecay || !r.saves then w₁
    else { w₁ with lastDecayDate := some (cal.date r.saved) }

def World.lastRead (w : World) (r : DecayRun) : Option String :=
  if r.readable then w.lastDecayDate else none

def World.dueDays (w : World) (r : DecayRun) : ℕ :=
  missedDays cal (if r.readableAgain then w.lastDecayDate else none) r.missed+1

def World.checkAndExecute (w : World) (r : DecayRun) : World :=
  if w.lastRead r = some (cal.date r.checked) then w
  else w.executeDecay env cal c (w.dueDays cal r) r

def step (w : World) : Step → World
  | .add id m => if w.rows.any fun e => e.1 = id then w else { w with rows := w.rows++[(id,m)] }
  | .remove id => { w with rows := w.rows.filter fun e => e.1 ≠ id }
  | .run r => w.checkAndExecute env cal c r

def run (w : World) (steps : List Step) : World := steps.foldl (step env cal c) w

def World.succeeds (w : World) (r : DecayRun) : Bool :=
  w.lastRead r ≠ some (cal.date r.checked) && r.cut.isNone && r.saves

def World.received (w : World) (id : ℕ) : ℕ :=
  ((w.applied.filter fun e => e.1 = id).map Prod.snd).sum

def World.recorded (w : World) : Option ℤ := w.lastDecayDate.bind cal.day

def datedDay (m : Metadata) : Option ℤ :=
  match getValue m "last_decay_date" with
  | .str s => cal.day s
  | _ => none

/-- A run on one day, not before the recorded one: the state file can be read, its day is not
recorded without a decay, and the only memories dated past the recorded day are dated today. -/
structure Orderly (w : World) (r : DecayRun) : Prop where
  readable : r.readable = true ∧ r.readableAgain = true
  oneDay : r.missed = r.checked ∧ r.decayed = r.checked ∧ r.saved = r.checked
  forward : ∀ l ∈ w.recorded cal, l ≤ r.checked
  commits : w.succeeds cal r = true → 0 < c.decayRate ∧ r.commits = true ∧
    w.rows.any (fun e => raises env c (cal.date r.checked) e.2) = false
  settled : ∀ e ∈ w.rows, ∀ d ∈ datedDay cal e.2,
    d ≤ r.checked ∧ ∀ l ∈ w.recorded cal, l < d → d = r.checked

instance (w : World) (r : DecayRun) : Decidable (Orderly env cal c w r) :=
  decidable_of_iff ((r.readable = true ∧ r.readableAgain = true) ∧
      (r.missed = r.checked ∧ r.decayed = r.checked ∧ r.saved = r.checked) ∧
      (∀ l ∈ w.recorded cal, l ≤ r.checked) ∧ (w.succeeds cal r = true → 0 < c.decayRate ∧ r.commits = true ∧
        w.rows.any (fun e => raises env c (cal.date r.checked) e.2) = false) ∧
      ∀ e ∈ w.rows, ∀ d ∈ datedDay cal e.2, d ≤ r.checked ∧ ∀ l ∈ w.recorded cal, l < d → d = r.checked)
    ⟨fun ⟨h₁,h₂,h₃,h₄,h₅⟩ => ⟨h₁,h₂,h₃,h₄,h₅⟩,
      fun h => ⟨h.readable,h.oneDay,h.forward,h.commits,h.settled⟩⟩

/-- Runs are orderly; memories come and go. -/
def OrderlyStep (w : World) : Step → Prop
  | .run r => Orderly env cal c w r
  | _ => True

instance decidableOrderlyStep (w : World) : (x : Step) → Decidable (OrderlyStep env cal c w x)
  | .run r => inferInstanceAs (Decidable (Orderly env cal c w r))
  | .add .. | .remove _ => isTrue trivial

variable {env : DecayEnv} {cal : Calendar} {c : DecayConfig} {w : World} {r : DecayRun} {id : ℕ}
  {m : Metadata}

lemma Calendar.date_inj (cal : Calendar) {d d' : ℤ} (h : cal.date d = cal.date d') : d = d' :=
  Option.some.inj ((cal.day_date d).symm.trans ((congrArg cal.day h).trans (cal.day_date d')))

def World.Keyed (w : World) : Prop := (w.rows.map Prod.fst).Nodup

def Meant (env : DecayEnv) (c : DecayConfig) (m : Metadata) : Prop :=
  selected env m = true ∧ flashbulb env c m = false

lemma Meant.decays (h : Meant env c m) {today : String} :
    decays env c today m = true ↔ getValue m "last_decay_date" ≠ .str today := by
  simp [Decay.decays,h.1,h.2]

lemma Meant.decayed (h : Meant env c m) (days : ℕ) (today : String) (time : ℚ) :
    Meant env c (decayed env c days today time m) :=
  ⟨selected_decayed,flashbulb_decayed.trans h.2⟩

lemma World.Keyed.step (h : w.Keyed) (x : Step) : (step env cal c w x).Keyed := by
  have hdecay : ∀ (w : World) (days : ℕ) (r : DecayRun), w.Keyed → (w.decayStep env cal c days r).Keyed := by
    intro w days r hw
    unfold World.decayStep World.decay
    split
    · split
      · exact hw
      · simpa [World.Keyed,Function.comp_def] using hw
    · exact hw
  cases x with
  | add id m =>
    unfold Decay.step
    dsimp only
    split
    · exact h
    · rename_i hnew
      simp only [World.Keyed,List.map_append,List.map_cons,List.map_nil]
      refine List.nodup_append.mpr ⟨h,by simp,?_⟩
      intro a ha b hb hab
      obtain ⟨e,he,rfl⟩ := List.mem_map.mp ha
      obtain rfl : b = id := by simpa using hb
      exact hnew (List.any_eq_true.mpr ⟨e,he,by simpa using hab⟩)
  | remove id => exact List.Nodup.sublist (List.filter_sublist.map _) h
  | run r =>
    change (w.checkAndExecute env cal c r).Keyed
    unfold World.checkAndExecute World.executeDecay
    split
    · exact h
    split
    · exact h
    split
    · exact hdecay w _ r h
    · exact hdecay w _ r h

lemma received_decay (h : w.Keyed) (hm : (id,m) ∈ w.rows) (days : ℕ) (today : String) :
    ((((w.rows.filter fun e => decays env c today e.2).map fun e => (e.1,days)).filter
      fun e => e.1 = id).map Prod.snd).sum = if decays env c today m then days else 0 := by
  have hrows : w.rows.filter (fun e => e.1 = id) = [(id,m)] := by
    have hcount : (w.rows.filter fun e => e.1 = id).length ≤ 1 := by
      rw [← List.countP_eq_length_filter]
      exact RowTable.countP_le_one h (k := id) (by simp)
    have hmem : (id,m) ∈ w.rows.filter fun e => e.1 = id := List.mem_filter.mpr ⟨hm,by simp⟩
    obtain ⟨x,hx⟩ := List.length_eq_one_iff.mp (Nat.le_antisymm hcount (List.length_pos_of_mem hmem))
    rw [hx] at hmem ⊢
    rw [List.mem_singleton.mp hmem]
  have hsplit : ((w.rows.filter fun e => decays env c today e.2).map
      fun e => (e.1,days)).filter (fun e => e.1 = id) =
        ((w.rows.filter fun e => e.1 = id).filter fun e => decays env c today e.2).map
          fun e => (e.1,days) := by
    rw [List.filter_map,List.filter_filter,List.filter_filter]
    congr 1
    apply List.filter_congr
    intro e _
    simp [Bool.and_comm]
  rw [hsplit,hrows]
  by_cases hd : decays env c today m = true <;> simp [hd]

def Dated (cal : Calendar) (m : Metadata) (d : ℤ) : Prop :=
  getValue m "last_decay_date" = .str (cal.date d)

/-- The days up to the recorded one are applied; a memory dated later is ahead, by a run that was
cut off. -/
def Accounted (cal : Calendar) (w : World) (id : ℕ) (m : Metadata) (start : ℤ) (base : ℕ) (l : ℤ) :
    Prop :=
  (∀ d, Dated cal m d → d ≤ l) ∧ (w.received id : ℤ) = base+(l - start) ∨
    ∃ d, l < d ∧ Dated cal m d ∧ (w.received id : ℤ) = base+(d - start)

structure Tracked (env : DecayEnv) (cal : Calendar) (c : DecayConfig) (id : ℕ) (start : ℤ)
    (base : ℕ) (w : World) : Prop where
  keyed : w.Keyed
  row : ∃ m, (id,m) ∈ w.rows ∧ Meant env c m ∧
    ∃ l, w.lastDecayDate = some (cal.date l) ∧ Accounted cal w id m start base l

variable {start l : ℤ} {base : ℕ}

lemma datedDay_of_dated {d : ℤ} (h : Dated cal m d) : d ∈ datedDay cal m := by
  rw [Dated] at h
  simp [datedDay,h,cal.day_date]

lemma recorded_of_date (h : w.lastDecayDate = some (cal.date l)) : l ∈ w.recorded cal := by
  simp [World.recorded,h,cal.day_date]

/-- The decay of an orderly run, for a memory it is meant for: the memory is dated today then, and
has received the days up to today. -/
theorem Accounted.decay (ho : Orderly env cal c w r) (hk : w.Keyed) (hm : (id,m) ∈ w.rows)
    (hmeant : Meant env c m) (hl : w.lastDecayDate = some (cal.date l))
    (ha : Accounted cal w id m start base l) (hnew : l ≠ r.checked)
    (hok : w.rows.any (fun e => raises env c (cal.date r.decayed) e.2) = false) :
    ∃ m', (id,m') ∈ (w.decay env c (w.dueDays cal r) (cal.date r.decayed) r.time).rows ∧
      Meant env c m' ∧ Dated cal m' r.checked ∧
      ((w.decay env c (w.dueDays cal r) (cal.date r.decayed) r.time).received id : ℤ) =
        base+(r.checked - start) := by
  have hle : l ≤ r.checked := ho.forward l (recorded_of_date hl)
  have hdays : (w.dueDays cal r : ℤ) = r.checked - l := by
    have hmissed : missedDays cal (some (cal.date l)) r.missed = (r.checked - l - 1).toNat := by
      rw [ho.oneDay.1,missedDays,Option.bind_some,cal.day_date]
    rw [World.dueDays,if_pos ho.readable.2,hl,hmissed]
    omega
  have htoday : r.decayed = r.checked := ho.oneDay.2.1
  unfold World.decay
  rw [if_neg (by simp [hok])]
  have hreceived : (World.received { w with
      rows := w.rows.map fun e =>
        (e.1,applyDailyDecay env c (w.dueDays cal r) (cal.date r.decayed) r.time e.2)
      applied := w.applied++(w.rows.filter fun e =>
        decays env c (cal.date r.decayed) e.2).map fun e => (e.1,w.dueDays cal r) } id) =
      w.received id+if decays env c (cal.date r.decayed) m then w.dueDays cal r else 0 := by
    rw [World.received,List.filter_append,List.map_append,List.sum_append, received_decay hk hm,World.received]
  refine ⟨applyDailyDecay env c (w.dueDays cal r) (cal.date r.decayed) r.time m,
    List.mem_map.mpr ⟨(id,m),hm,rfl⟩,?_⟩
  rw [hreceived]
  by_cases hdated : getValue m "last_decay_date" = .str (cal.date r.decayed)
  · -- dated today already: the run that did it was cut off and is repeated
    have hskip : ¬decays env c (cal.date r.decayed) m = true := by
      rw [hmeant.decays]
      simpa using hdated
    rw [applyDailyDecay,if_neg hskip,if_neg hskip,Nat.add_zero]
    rw [htoday] at hdated
    refine ⟨hmeant,hdated,?_⟩
    rcases ha with ⟨hpast,-⟩ | ⟨d,hld,hd,hsum⟩
    · have := hpast r.checked hdated
      omega
    · rw [hsum,((ho.settled _ hm d (datedDay_of_dated hd)).2 l (recorded_of_date hl) hld)]
  · have hreach : decays env c (cal.date r.decayed) m = true := hmeant.decays.mpr hdated
    rw [applyDailyDecay,if_pos hreach,if_pos hreach]
    refine ⟨hmeant.decayed _ _ _,?_,?_⟩
    · rw [Dated,decayed_date,htoday]
    · rcases ha with ⟨-,hsum⟩ | ⟨d,hld,hd,-⟩
      · push_cast
        omega
      · have htodayd := (ho.settled _ hm d (datedDay_of_dated hd)).2 l (recorded_of_date hl) hld
        rw [htodayd] at hd
        rw [htoday] at hdated
        exact absurd hd hdated

lemma Tracked.run (h : Tracked env cal c id start base w) (ho : Orderly env cal c w r) :
    Tracked env cal c id start base (w.checkAndExecute env cal c r) := by
  have hkeyed : (w.checkAndExecute env cal c r).Keyed := h.keyed.step (.run r)
  obtain ⟨m,hm,hmeant,l,hl,ha⟩ := h.row
  refine ⟨hkeyed,?_⟩
  unfold World.checkAndExecute
  split
  · exact ⟨m,hm,hmeant,l,hl,ha⟩
  rename_i hskip
  have hread : w.lastRead r = w.lastDecayDate := by rw [World.lastRead,if_pos ho.readable.1]
  have hnew : l ≠ r.checked := by
    rintro rfl
    exact hskip (hread.trans hl)
  unfold World.executeDecay
  split
  · exact ⟨m,hm,hmeant,l,hl,ha⟩
  have hrecord : ¬(r.cut = some .afterDecay || !r.saves) = true → w.succeeds cal r = true := by
    intro hgo
    have hnone : r.cut = none := by
      cases hc : r.cut with
      | none => rfl
      | some k => cases k <;> simp_all
    simp_all [World.succeeds]
  unfold World.decayStep
  by_cases hdo : (0 < c.decayRate && r.commits) = true ∧
      w.rows.any (fun e => raises env c (cal.date r.decayed) e.2) = false
  · obtain ⟨m',hm',hmeant',hdated,hsum⟩ := ha.decay ho h.keyed hm hmeant hl hnew hdo.2
    rw [if_pos hdo.1]
    split
    · refine ⟨m',hm',hmeant',l,?_,.inr ⟨r.checked,?_,hdated,hsum⟩⟩
      · unfold World.decay
        split <;> exact hl
      · have := ho.forward l (recorded_of_date hl)
        omega
    · refine ⟨m',hm',hmeant',r.checked,?_,.inl ⟨fun d hd => ?_,hsum⟩⟩
      · rw [ho.oneDay.2.2]
      · have := hdated.symm.trans hd
        simp only [Value.str.injEq] at this
        exact (cal.date_inj this).ge
  · -- no decay: then the day is not recorded either
    have hsame : (if (0 < c.decayRate && r.commits) = true then
        w.decay env c (w.dueDays cal r) (cal.date r.decayed) r.time else w) = w := by
      split
      · rename_i hon
        have hraise : w.rows.any (fun e => raises env c (cal.date r.decayed) e.2) = true := by
          simpa using fun hno => hdo ⟨hon,hno⟩
        rw [World.decay,if_pos hraise]
      · rfl
    rw [hsame]
    split
    · exact ⟨m,hm,hmeant,l,hl,ha⟩
    · rename_i hgo
      obtain ⟨hrate,hcommits,hok⟩ := ho.commits (hrecord hgo)
      rw [← ho.oneDay.2.1] at hok
      exact absurd ⟨by simp [hrate,hcommits],hok⟩ hdo

variable (env c) in
lemma checkAndExecute_succeeds (hs : w.succeeds cal r = true) :
    w.checkAndExecute env cal c r = { w.decayStep env cal c (w.dueDays cal r) r with
      lastDecayDate := some (cal.date r.saved) } := by
  simp only [World.succeeds,Bool.and_eq_true,decide_eq_true_eq,Option.isNone_iff_eq_none] at hs
  obtain ⟨⟨hskip,hcut⟩,hsaves⟩ := hs
  rw [World.checkAndExecute,if_neg hskip,World.executeDecay]
  simp [hcut,hsaves]

lemma decayStep_date (ho : Orderly env cal c w r) {e : ℕ × Metadata} (days : ℕ)
    (he : e ∈ (w.decayStep env cal c days r).rows) {d : ℤ} (hd : Dated cal e.2 d) :
    d ≤ r.checked := by
  unfold World.decayStep World.decay at he
  split at he
  · split at he
    · exact (ho.settled e he d (datedDay_of_dated hd)).1
    · obtain ⟨x,hx,rfl⟩ := List.mem_map.mp he
      simp only [applyDailyDecay] at hd
      split at hd
      · rw [Dated,decayed_date,ho.oneDay.2.1] at hd
        simp only [Value.str.injEq] at hd
        exact (cal.date_inj hd).ge
      · exact (ho.settled x hx d (datedDay_of_dated hd)).1
  · exact (ho.settled e he d (datedDay_of_dated hd)).1

lemma Tracked.first (hk : w.Keyed) (ho : Orderly env cal c w r)
    (hs : w.succeeds cal r = true) (hm : (id,m) ∈ (w.checkAndExecute env cal c r).rows)
    (hmeant : Meant env c m) : Tracked env cal c id r.saved
    ((w.checkAndExecute env cal c r).received id)
      (w.checkAndExecute env cal c r) := by
  refine ⟨hk.step (.run r),m,hm,hmeant,r.saved,?_,.inl ⟨fun d hd => ?_,by omega⟩⟩
  · rw [checkAndExecute_succeeds env c hs]
  · rw [checkAndExecute_succeeds env c hs] at hm
    rw [ho.oneDay.2.2]
    exact decayStep_date ho _ hm hd

lemma Tracked.step (h : Tracked env cal c id start base w) {x : Step}
    (ho : OrderlyStep env cal c w x) (hkept : ∀ k, x = .remove k → k ≠ id) :
    Tracked env cal c id start base (step env cal c w x) := by
  have hkeyed : (Decay.step env cal c w x).Keyed := h.keyed.step x
  cases x with
  | run r => exact h.run ho
  | add k m' =>
    obtain ⟨m,hm,hrest⟩ := h.row
    refine ⟨hkeyed,m,?_,?_⟩
    · unfold Decay.step
      dsimp only
      split
      · exact hm
      · exact List.mem_append_left _ hm
    · unfold Decay.step
      dsimp only
      split <;> exact hrest
  | remove k =>
    obtain ⟨m,hm,hrest⟩ := h.row
    have hne := hkept k rfl
    exact ⟨hkeyed,m,List.mem_filter.mpr ⟨hm,by simpa using hne.symm⟩,hrest⟩

lemma keyed_run (env : DecayEnv) (cal : Calendar) (c : DecayConfig) (steps : List Step) :
    (run env cal c World.empty steps).Keyed :=
  RunLaws.foldl_invariant (P := World.Keyed) (fun _ x h => h.step x)
    (show World.empty.Keyed from List.nodup_nil) steps

lemma Tracked.along {steps : List Step} (h : Tracked env cal c id start base w)
    (ho : RunLaws.Along (Decay.step env cal c) (OrderlyStep env cal c) w steps)
    (hkept : .remove id ∉ steps) : Tracked env cal c id start base
    (Decay.run env cal c w steps) := by
  induction steps generalizing w with
  | nil => exact h
  | cons x xs ih =>
    rw [List.mem_cons,not_or] at hkept
    refine ih (h.step ho.1 fun k hk heq => hkept.1 ?_) ho.2 hkept.2
    rw [hk,heq]

/-- Between the first run that succeeds and the last, a memory that decay is meant for receives
one decay-day for each day, if the runs are orderly. -/
theorem decay_days_elapsed (env : DecayEnv) (cal : Calendar) (c : DecayConfig)
    (before between : List Step) (first last : DecayRun) (id : ℕ) (m : Metadata)
    (horderly : RunLaws.Along (step env cal c) (OrderlyStep env cal c)
      (run env cal c World.empty before) (.run first::(between++[.run last])))
    (hfirst : (run env cal c World.empty before).succeeds cal first = true)
    (hlast : (run env cal c World.empty (before++.run first::between)).succeeds cal last = true)
    (hrow : (id,m) ∈ (run env cal c World.empty (before++[.run first])).rows)
    (hmeant : Meant env c m) (hkept : .remove id ∉ between) :
    ((run env cal c World.empty (before++.run first::(between++[.run last]))).received id : ℤ) -
      (run env cal c World.empty (before++[.run first])).received id = last.saved - first.saved := by
  set w := run env cal c World.empty before with hw
  have hk : w.Keyed := keyed_run env cal c before
  have hafter : run env cal c World.empty (before++[.run first]) =
      w.checkAndExecute env cal c first := by
    rw [run,List.foldl_append,hw,run]
    rfl
  have hmid : run env cal c World.empty (before++.run first::between) =
      run env cal c (w.checkAndExecute env cal c first) between := by
    rw [run,List.foldl_append,hw,run]
    rfl
  have hend : run env cal c World.empty (before++.run first::(between++[.run last])) =
      (run env cal c (w.checkAndExecute env cal c first) between).checkAndExecute env cal c last := by
    rw [run,List.foldl_append,List.foldl_cons,List.foldl_append,hw,run,run]
    rfl
  rw [hafter] at hrow
  rw [hmid] at hlast
  rw [hafter,hend]
  obtain ⟨hfirstorder,hrest⟩ := horderly
  obtain ⟨hbetween,hlastorder,-⟩ := RunLaws.along_append.mp hrest
  have htracked := (Tracked.first hk hfirstorder hfirst hrow hmeant).along hbetween hkept
  have hfinal := htracked.run hlastorder
  obtain ⟨m',hm',-,l,hl,ha⟩ := hfinal.row
  have hrecorded := checkAndExecute_succeeds env c hlast
  rw [hrecorded] at hl hm' ⊢
  have hl : last.saved = l := cal.date_inj (Option.some.inj hl)
  rcases ha with ⟨-,hsum⟩ | ⟨d,hld,hd,-⟩
  · rw [hrecorded] at hsum
    omega
  · have hle := decayStep_date hlastorder _ hm' hd
    rw [← hlastorder.oneDay.2.2] at hle
    omega

def sampleCalendar : Calendar where
  date d := String.ofList (List.replicate d.natAbs (if d < 0 then '-' else '+'))
  day s := some (if s.toList.head? = some '-' then -(s.length : ℤ) else s.length)
  day_date d := by
    by_cases hd : d < 0
    · have hhead : (List.replicate d.natAbs '-').head? = some '-' := by
        obtain ⟨n,hn⟩ : ∃ n, d.natAbs = n+1 := ⟨d.natAbs - 1,by omega⟩
        simp [hn,List.replicate_succ]
      simp only [hd,if_true,String.toList_ofList,hhead,String.length_ofList, List.length_replicate]
      congr 1
      omega
    · have hhead : (List.replicate d.natAbs '+').head? ≠ some '-' := by
        cases d.natAbs <;> simp [List.replicate_succ]
      simp only [hd,if_false,String.toList_ofList,hhead,String.length_ofList, List.length_replicate]
      congr 1
      omega

def sampleDecayEnv : DecayEnv := ⟨sampleEnv,fun _ => false⟩

def sampleDecay : DecayConfig where
  decayRate := 1 / 100

def runOn (d : ℤ) : DecayRun := ⟨d,d,d,d,0,true,true,true,none,true⟩

def plainMemory : Metadata := Dict.set {} "importance" (.num (1 / 2))

def vividMemory : Metadata := plainMemory.set "emotional_intensity" (.num (95 / 100))

/-- A memory of strong emotion receives no decay-day at all, where another receives one. -/
theorem decay_days_missing :
    (run sampleDecayEnv sampleCalendar sampleDecay World.empty
        [.add 1 vividMemory,.run (runOn 1),.run (runOn 2)]).received 1 = 0 ∧
      (run sampleDecayEnv sampleCalendar sampleDecay World.empty
        [.add 1 plainMemory,.run (runOn 1),.run (runOn 2)]).received 1 = 2 := by
  decide +kernel

-- a day whose decay fails is recorded like any other, so that it is skipped
example : (run sampleDecayEnv sampleCalendar sampleDecay World.empty
    [.add 1 plainMemory,.run (runOn 1),
    .run { runOn 2 with commits := false },.run (runOn 3)]).received 1 = 2 := by
  decide +kernel

/-- A run on the second day is cut off after its decay, and one on the same day completes it. -/
theorem decay_days_elapsed_sample :
    ∃ m, (1,m) ∈ (run sampleDecayEnv sampleCalendar sampleDecay World.empty
        ([.add 1 plainMemory]++[.run (runOn 1)])).rows ∧
      ((run sampleDecayEnv sampleCalendar sampleDecay World.empty ([.add 1 plainMemory] ++
          .run (runOn 1)::([.run { runOn 4 with cut := some .afterDecay }] ++
            [.run (runOn 4)]))).received 1 : ℤ) -
        (run sampleDecayEnv sampleCalendar sampleDecay World.empty
          ([.add 1 plainMemory]++[.run (runOn 1)])).received 1 = 4 - 1 := by
  have hrow : (1,decayed sampleDecayEnv sampleDecay 1 (sampleCalendar.date 1) 0 plainMemory) ∈
      (run sampleDecayEnv sampleCalendar sampleDecay World.empty
        ([.add 1 plainMemory]++[.run (runOn 1)])).rows := by
    decide +kernel
  refine ⟨_,hrow,?_⟩
  exact decay_days_elapsed sampleDecayEnv sampleCalendar sampleDecay [.add 1 plainMemory]
    [.run { runOn 4 with cut := some .afterDecay }] (runOn 1) (runOn 4) 1 _ (by decide +kernel)
    (by decide +kernel) (by decide +kernel) hrow (by constructor <;> decide +kernel) (by simp)

end Memora.Decay
