import Memora.ConfigRuns

/-! A call that raises takes its candidate back only where the source still is the candidate, and
then with whatever was edited meanwhile. Between two calls that were given the same revision
another one was published, where calls change something. -/
namespace Memora.Configuration
open RunLaws

variable {env : ConfigEnv} {w w' : World} {s : Saving} {r : ApplyRequest} {m : Manager}

/-- The errors that a call raises for itself. -/
def ApplyError.undoes : ApplyError → Bool
  | .conflict _ _ | .validation _ | .persistence _ => true
  | .cancelled | .failed _ => false

/-- The source is what the edits alone would have made it, and the snapshot is the one the call
found or reads as the edits made the source. -/
structure Undone (env : ConfigEnv) (w w' : World) : Prop where
  source : w'.source = w.untouched
  manager : w'.manager = w.found ∨ env.Published w.sourceFound w'.manager ∨
    env.Published w.untouched w'.manager

/-- A call that raises leaves everything as it was, apart from the edits; and a source that is
taken back loses no edit. -/
def Settles (env : ConfigEnv) (w : World) (e : Event) : Prop :=
  (∀ done err, (w.next env e).2 = some done → done.outcome = .error err → err.undoes = true →
    Undone env w (w.step env e)) ∧
  ∀ s message, w.saving = some s → e = .saveFailed message →
    (w.step env e).source = w.source ∨ (w.step env e).source = w.untouched

def Saving.Lands (env : ConfigEnv) (s : Saving) : Prop :=
  s.cancellationRequested = true ∨ s.touched = s.untouched ∨
    ∀ config revision, env.readSourceState s.touched = .ok (config,revision) →
    revision = s.candidateRevision

def Spared (env : ConfigEnv) (w : World) (e : Event) : Prop :=
  match w.saving, e with
  | some s, .saveFailed _ =>
    if env.sourceStillMatches s.touched s.candidate then
      s.untouched = s.sourceBefore ∨ (s.cancellationRequested = true ∧ s.touched = s.sourceBefore)
    else s.cancellationRequested = true ∨ s.touched = s.untouched
  | some s, .saved => s.Lands env
  | none, .apply r => ∀ w' s, w.enter env r = .installed w' s → env.persistenceCapable = false → s.Lands env
  | _, _ => True

lemma not_cancelled {cancelled : Bool} {e : ApplyError}
    (h : (if cancelled = true then ApplyError.cancelled else e).undoes = true) :
    ¬cancelled = true := by
  intro hcancelled
  rw [if_pos hcancelled] at h
  cases h

/-- The end of a save that went well undoes what it has to exactly where the candidate lands. -/
theorem saved_undone (hs : InProgress env w s) (hsaving : w.saving = some s) :
    (∀ done err, (w.saved env s).2 = some done → done.outcome = .error err → err.undoes = true →
      Undone env w (w.saved env s).1) ↔ s.Lands env := by
  have huntouched : w.untouched = s.untouched := by simp [World.untouched,hsaving]
  have hsaved := World.saved_saved env w s
  generalize w.saved env s = after at hsaved ⊢
  cases hsaved with
  | unread message hread =>
    rw [hs.source] at hread
    constructor
    · intro _
      right; right
      intro config revision h
      rw [hread] at h
      cases h
    · intro _ done err hdone herr hundoes
      cases hdone
      cases herr
      cases hundoes
  | published config hread =>
    rw [hs.source] at hread
    constructor
    · intro _
      right; right
      intro config' revision h
      rw [hread] at h
      exact (Prod.mk.inj (Except.ok.inj h)).2.symm
    · intro _ done err hdone herr hundoes
      cases hdone
      split at herr
      · cases herr
        cases hundoes
      · cases herr
  | overtaken config revision hread hne =>
    rw [hs.source] at hread
    constructor
    · intro h
      by_cases hcancelled : s.cancellationRequested = true
      · exact .inl hcancelled
      · right; left
        have hundone := h _ _ rfl rfl (by rw [if_neg hcancelled]; rfl)
        have hsource : w.source = w.untouched := hundone.source
        rw [← hs.source,hsource,huntouched]
    · intro h done err hdone herr hundoes
      cases hdone
      cases herr
      have hcancelled := not_cancelled hundoes
      rcases h with h | h | h
      · exact absurd h hcancelled
      · refine ⟨?_,.inr (.inr ?_)⟩
        · rw [huntouched,← h]
          exact hs.source
        · rw [huntouched,← h]
          exact hread
      · exact absurd (h config revision hread) hne

/-- The end of a save that failed undoes what it has to exactly where the edits leave room. -/
theorem saveFailed_settles (h : Sound env w) (hsaving : w.saving = some s) (message : String) :
    Settles env w (.saveFailed message) ↔ Spared env w (.saveFailed message) := by
  have hs := h.saving s hsaving
  have hnext : w.next env (.saveFailed message) = w.saveFailed env s message := by
    unfold World.next
    rw [hsaving]
  have huntouched : w.untouched = s.untouched := by simp [World.untouched,hsaving]
  have hfound : w.manager = w.found ∨ env.Published w.sourceFound w.manager := by
    simpa [World.found,World.sourceFound,hsaving] using hs.manager
  unfold Settles Spared World.step
  rw [hnext,hsaving]
  dsimp only [World.saveFailed]
  rw [hs.source,huntouched]
  by_cases hmatch : env.sourceStillMatches s.touched s.candidate = true
  · rw [if_pos hmatch,if_pos hmatch]
    constructor
    · rintro ⟨hundone,hkeeps⟩
      by_cases hcancelled : s.cancellationRequested = true
      · rcases hkeeps s message rfl rfl with hsource | hsource
        · exact .inr ⟨hcancelled,hsource.symm⟩
        · exact .inl hsource.symm
      · have hall := hundone _ _ rfl rfl (by rw [if_neg hcancelled]; rfl)
        have hsource := hall.source
        rw [huntouched] at hsource
        exact .inl hsource.symm
    · intro hspared
      refine ⟨?_,?_⟩
      · intro done err hdone herr hundoes
        cases hdone
        cases herr
        have hcancelled := not_cancelled hundoes
        rcases hspared with hsource | ⟨hcancelled',-⟩
        · refine ⟨?_,hfound.imp_right Or.inl⟩
          rw [huntouched]
          exact hsource.symm
        · exact absurd hcancelled' hcancelled
      · intro _ _ _ _
        rcases hspared with hsource | ⟨-,hsource⟩
        · exact .inr hsource.symm
        · exact .inl hsource.symm
  · rw [if_neg hmatch,if_neg hmatch]
    constructor
    · rintro ⟨hundone,-⟩
      by_cases hcancelled : s.cancellationRequested = true
      · exact .inl hcancelled
      · have hall := hundone _ _ rfl rfl (by rw [if_neg hcancelled]; rfl)
        have hsource := hall.source
        rw [huntouched] at hsource
        exact .inr hsource
    · intro hspared
      refine ⟨?_,fun _ _ _ _ => .inl rfl⟩
      intro done err hdone herr hundoes
      cases hdone
      cases herr
      have hcancelled := not_cancelled hundoes
      refine ⟨?_,hfound.imp_right Or.inl⟩
      rw [huntouched]
      exact hspared.resolve_left hcancelled

lemma InProgress.installed {snapshot : Config} {revision : String}
    (hm : w.reconcileSource env = .ok m)
    (hrevision : ∀ x, r.expectedRevision = some x → m.revision = x)
    (hcandidate : env.candidate m.config r.changes = .ok (snapshot,revision)) :
    InProgress env { w with
      source := snapshot
      manager := m
      saving := some (w.beginSave r snapshot revision) } (w.beginSave r snapshot revision) where
  source := rfl
  candidate := ConfigEnv.candidate_sealed hcandidate
  manager := World.reconcileSource_cases hm
  expected := hrevision

lemma apply_settles (hsaving : w.saving = none) (r : ApplyRequest) :
    Settles env w (.apply r) ↔ Spared env w (.apply r) := by
  have hnext : w.next env (.apply r) = w.applyConfigChanges env r := by
    unfold World.next
    rw [hsaving]
  have huntouched : w.untouched = w.source := by simp [World.untouched,hsaving]
  have hfound : w.found = w.manager := by simp [World.found,hsaving]
  unfold Settles Spared World.step
  rw [hnext,hsaving]
  dsimp only [World.applyConfigChanges]
  have henters := World.enter_enters env w r
  generalize w.enter env r = entry at henters ⊢
  cases henters with
  | unread message =>
    refine ⟨fun _ w' s hs => (by cases hs),fun _ => ⟨?_,fun s _ hs => (by cases hs)⟩⟩
    intro done err hdone herr hundoes
    cases hdone
    cases herr
    cases hundoes
  | raised m e hm =>
    refine ⟨fun _ w' s hs => (by cases hs),fun _ => ⟨?_,fun s _ hs => (by cases hs)⟩⟩
    intro done err hdone herr hundoes
    refine ⟨huntouched.symm,?_⟩
    rw [huntouched,hfound]
    exact (World.reconcileSource_cases hm).imp_right Or.inr
  | unchanged | published =>
    refine ⟨fun _ w' s hs => (by cases hs),fun _ => ⟨?_,fun s _ hs => (by cases hs)⟩⟩
    intro done err hdone herr hundoes
    cases hdone
    cases herr
  | installed m snapshot revision hm hrevision hcandidate =>
    have hs := InProgress.installed hm hrevision hcandidate
    dsimp only
    by_cases hcapable : env.persistenceCapable = true
    · rw [if_pos hcapable]
      refine ⟨fun _ w' s _ hfalse => ?_,fun _ => ⟨fun done err hdone => ?_,
        fun s _ hs => (by cases hs)⟩⟩
      · rw [hcapable] at hfalse
        cases hfalse
      · cases hdone
    · rw [if_neg hcapable]
      have hlands := saved_undone hs rfl
      have hundone : ∀ x, Undone env { w with
          source := snapshot
          manager := m
          saving := some (w.beginSave r snapshot revision) } x ↔ Undone env w x := by
        intro x
        have hsourceFound : w.sourceFound = w.source := by simp [World.sourceFound,hsaving]
        refine ⟨fun hx => ⟨?_,?_⟩,fun hx => ⟨?_,?_⟩⟩
        · rw [huntouched]
          exact hx.source
        · rw [huntouched,hfound,hsourceFound]
          exact hx.manager
        · rw [hx.source,huntouched]
          rfl
        · have hmanager := hx.manager
          rw [huntouched,hfound,hsourceFound] at hmanager
          exact hmanager
      simp only [hundone] at hlands
      constructor
      · rintro ⟨hall,-⟩ w' s hs _
        obtain ⟨-,rfl⟩ := Entry.installed.inj hs
        exact hlands.mp hall
      · intro hspared
        exact ⟨hlands.mpr (hspared _ _ rfl (by simpa using hcapable)),fun s _ hs => (by cases hs)⟩

/-- A step settles what it has to exactly where the edits leave room. -/
theorem settles_iff_spared (h : Sound env w) (e : Event) : Settles env w e ↔ Spared env w e := by
  cases hsaving : w.saving with
  | none =>
    cases e with
    | apply r => exact apply_settles hsaving r
    | snapshot =>
      have hnone : (w.next env .snapshot).2 = none := by
        unfold World.next
        rw [hsaving]
        dsimp only
        split <;> rfl
      unfold Settles Spared
      rw [hnone,hsaving]
      exact ⟨fun _ => trivial,
        fun _ => ⟨fun done err hdone => (by cases hdone),fun s _ hs => (by cases hs)⟩⟩
    | edit | cancel | saved | saveFailed =>
      unfold Settles Spared World.next
      rw [hsaving]
      exact ⟨fun _ => trivial,
        fun _ => ⟨fun done err hdone => (by cases hdone),fun s _ hs => (by cases hs)⟩⟩
  | some s =>
    cases e with
    | saveFailed message => exact saveFailed_settles h hsaving message
    | saved =>
      have hnext : w.next env .saved = w.saved env s := by
        unfold World.next
        rw [hsaving]
      unfold Settles Spared World.step
      rw [hnext,hsaving]
      have hlands := saved_undone (h.saving s hsaving) hsaving
      exact ⟨fun hall => hlands.mp hall.1,
        fun hspared => ⟨hlands.mpr hspared,fun _ _ _ he => (by cases he)⟩⟩
    | edit | snapshot | apply | cancel =>
      unfold Settles Spared World.next
      rw [hsaving]
      exact ⟨fun _ => trivial,
        fun _ => ⟨fun done err hdone => (by cases hdone),fun _ _ _ he => (by cases he)⟩⟩

lemma spared_unedited {message : String} (hsaving : w.saving = some s) (hedits : s.edits = [])
    (hcandidate : env.computeRevision s.candidate = .ok s.candidateRevision) :
    Spared env w (.saveFailed message) := by
  unfold Spared
  rw [hsaving]
  have htouched : s.touched = s.candidate := by simp [Saving.touched,hedits]
  have hmatches : env.sourceStillMatches s.touched s.candidate = true := by
    unfold ConfigEnv.sourceStillMatches
    rw [htouched,hcandidate]
    simp
  dsimp only
  rw [if_pos hmatches]
  left
  simp [Saving.untouched,hedits]

/-- With this event a call given the revision `x` succeeds. -/
def Succeeds (env : ConfigEnv) (w : World) (e : Event) (x : String) : Prop :=
  ∃ done result, (w.next env e).2 = some done ∧ done.outcome = .ok result ∧
    done.request.expectedRevision = some x

/-- The call that ends with this event was checked against the revision `x`. -/
def CheckedAgainst (env : ConfigEnv) (w : World) (e : Event) (x : String) : Prop :=
  match w.saving, e with
  | none, .apply _ => ∃ m, w.reconcileSource env = .ok m ∧ m.revision = x
  | _, _ => w.manager.revision = x

def Effective (env : ConfigEnv) (w : World) (e : Event) : Prop :=
  match w.saving, e with
  | none, .apply r => ∀ x, r.expectedRevision = some x → r.changes ≠ [] ∧
      ∀ m snapshot revision, w.reconcileSource env = .ok m →
        env.candidate m.config r.changes = .ok (snapshot,revision) → revision ≠ x
  | _, _ => True

def Moving (w : World) : Prop :=
  ∀ s, w.saving = some s → s.request.expectedRevision ≠ some s.candidateRevision

lemma saved_moved (hne : s.request.expectedRevision ≠ some s.candidateRevision) {done : Finished}
    {result : ConfigApplyResult} {x : String} (hdone : (w.saved env s).2 = some done)
    (hok : done.outcome = .ok result) (hx : done.request.expectedRevision = some x) :
    s.request.expectedRevision = some x ∧ (w.saved env s).1.manager.revision ≠ x := by
  have hsaved := World.saved_saved env w s
  generalize w.saved env s = after at hsaved hdone
  cases hsaved with
  | unread | overtaken =>
    cases hdone
    cases hok
  | published config hread =>
    cases hdone
    refine ⟨hx,?_⟩
    intro heq
    have hrevision : s.candidateRevision = x := heq
    exact hne (hrevision ▸ hx)

/-- A success leaves another revision published than the one its call was given and checked
against. -/
theorem Succeeds.moves (hs : Sound env w) (hmoving : Moving w) {e : Event}
    (heffective : Effective env w e) {x : String} (h : Succeeds env w e x) :
    CheckedAgainst env w e x ∧ (w.step env e).manager.revision ≠ x := by
  obtain ⟨done,result,hdone,hok,hx⟩ := h
  unfold Effective at heffective
  unfold CheckedAgainst World.step
  cases hsaving : w.saving with
  | none =>
    rw [hsaving] at heffective
    unfold World.next at hdone ⊢
    rw [hsaving] at hdone ⊢
    cases e with
    | apply r =>
      dsimp only [World.applyConfigChanges] at hdone heffective ⊢
      have henters := World.enter_enters env w r
      generalize w.enter env r = entry at henters hdone
      cases henters with
      | unread message | raised =>
        cases hdone
        cases hok
      | unchanged m hm hrevision hempty =>
        cases hdone
        exact absurd hempty (heffective x hx).1
      | published m snapshot revision hm hrevision hcandidate =>
        cases hdone
        exact ⟨⟨m,hm,hrevision x hx⟩,(heffective x hx).2 m snapshot revision hm hcandidate⟩
      | installed m snapshot revision hm hrevision hcandidate =>
        dsimp only at hdone ⊢
        by_cases hcapable : env.persistenceCapable = true
        · rw [if_pos hcapable] at hdone
          cases hdone
        · rw [if_neg hcapable] at hdone ⊢
          have hne : (w.beginSave r snapshot revision).request.expectedRevision ≠
              some (w.beginSave r snapshot revision).candidateRevision := fun heq =>
            (heffective revision heq).2 m snapshot revision hm hcandidate rfl
          obtain ⟨hexpected,hmoved⟩ := saved_moved hne hdone hok hx
          exact ⟨⟨m,hm,hrevision x hexpected⟩,hmoved⟩
    | snapshot =>
      dsimp only at hdone
      split at hdone <;> cases hdone
    | edit | cancel | saved | saveFailed => cases hdone
  | some s =>
    unfold World.next at hdone ⊢
    rw [hsaving] at hdone ⊢
    cases e with
    | saved =>
      obtain ⟨hexpected,hmoved⟩ := saved_moved (hmoving s hsaving) hdone hok hx
      exact ⟨(hs.saving s hsaving).expected x hexpected,hmoved⟩
    | saveFailed message =>
      cases hdone
      cases hok
    | edit | snapshot | apply | cancel => cases hdone

lemma Moving.step (h : Moving w) {e : Event} (heffective : Effective env w e) :
    Moving (w.step env e) := by
  unfold Effective at heffective
  unfold World.step World.next
  cases hsaving : w.saving with
  | none =>
    rw [hsaving] at heffective
    cases e with
    | apply r =>
      dsimp only [World.applyConfigChanges] at heffective ⊢
      have henters := World.enter_enters env w r
      generalize w.enter env r = entry at henters
      cases henters with
      | unread | raised | unchanged | published => exact h
      | installed m snapshot revision hm hrevision hcandidate =>
        dsimp only
        split
        · intro s hs heq
          cases hs
          exact (heffective revision heq).2 m snapshot revision hm hcandidate rfl
        · rename_i hcapable
          intro s hs
          rw [saved_idle] at hs
          cases hs
    | snapshot =>
      dsimp only
      split
      · exact h
      · exact fun s hs => by simp at hs
    | edit => exact fun s hs => by simp at hs
    | cancel | saved | saveFailed => exact h
  | some s =>
    have hne := h s hsaving
    cases e with
    | edit | cancel =>
      intro s' hs'
      cases hs'
      exact hne
    | saved =>
      intro s' hs'
      rw [saved_idle] at hs'
      cases hs'
    | saveFailed => exact fun s hs => by cases hs
    | snapshot | apply => exact h

lemma Moving.load {source : Config} (h : World.load env source = .ok w) : Moving w := by
  unfold World.load at h
  cases hread : env.readSourceState source with
  | error message =>
    rw [hread] at h
    cases h
  | ok read =>
    rw [hread] at h
    cases h
    exact fun s hs => by cases hs

lemma Sound.run (h : Sound env w) (events : List Event) : Sound env (w.run env events) :=
  foldl_invariant (fun _ e hw => hw.step e) h events

lemma run_append (w : World) (a b : List Event) :
    w.run env (a++b) = (w.run env a).run env b := List.foldl_append

/-- A configuration of texts, whose revision lists them. -/
def sampleEnv : ConfigEnv where
  readConfig := .ok
  validate := .ok
  computeRevision config := .ok <| String.join <| config.map fun e => e.1++match e.2 with
    | .str s => "="++s++";"
    | _ => ";"
  persistenceCapable := true
  schemaLeafPaths := some ["mode","level"]
  schemaLeafOptions _ := none

def sampleSource : Config := [("mode",.str "off"),("level",.str "low")]

def sampleWorld : World :=
  ⟨sampleSource,⟨sampleSource,"mode=off;level=low;","mode=off;level=low;"⟩,none⟩

def modeRequest (found mode : String) : ApplyRequest where
  changes := [(.text "mode",.str mode)]
  expectedRevision := some ("mode="++found++";level=low;")

/-- The mode is set, after a save that fails, and set back, and set again. -/
def sampleEvents : List Event :=
  [.apply (modeRequest "off" "on"),.saveFailed "disk full",.apply (modeRequest "off" "on")] ++
    .saved::([.apply (modeRequest "on" "off"),.saved,.apply (modeRequest "off" "on")]++.saved::[])

lemma effective_mode {w : World} {found mode : String} {m : Manager} {snapshot : Config}
    {revision : String} (hm : w.reconcileSource sampleEnv = .ok m)
    (hcandidate : sampleEnv.candidate m.config (modeRequest found mode).changes =
      .ok (snapshot,revision)) (hne : revision ≠ "mode="++found++";level=low;") :
    Effective sampleEnv w (.apply (modeRequest found mode)) := by
  unfold Effective
  split
  · rename_i r _ he
    obtain rfl := Event.apply.inj he
    intro x hx
    cases hx
    refine ⟨List.cons_ne_nil _ _,?_⟩
    intro m' snapshot' revision' hm' hcandidate'
    obtain rfl := Except.ok.inj (hm.symm.trans hm')
    obtain ⟨-,rfl⟩ := Prod.mk.inj (Except.ok.inj (hcandidate.symm.trans hcandidate'))
    exact hne
  · trivial

def editedEvents : List Event :=
  [.apply (modeRequest "off" "on"), .edit fun c => Dict.assign "level" (.str "high") c]

end Memora.Configuration
