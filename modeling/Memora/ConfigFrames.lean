import Memora.BinaryRounding
import Memora.ConfigOutcomes

/-! A call with `persist` set replaces the source by its candidate, and the candidate is the whole
runtime snapshot with the changes, as it is validated. What was changed in the snapshot only is
written with it, and so is a route weight that the validation adjusts to the other. -/
namespace Memora.Configuration
open RunLaws BinaryRounding
open Memora.Representation (Json)

variable {env : ConfigEnv} {w w' : World} {s : Saving} {r : ApplyRequest} {m : Manager}
  {c config snapshot : Config} {q : List String} {changes : List (ChangePath × Json)}
  {revision : String}
  {source : Config}

/-- `ConfigManager.get` without a default. -/
def getPath (c : Config) : List String → Option Json
  | [] => some (.obj c)
  | [part] => lookup part c
  | part::rest =>
    match lookup part c with
    | some (.obj entries) => getPath entries rest
    | _ => none

lemma lookup_assign_self (key : String) (v : Json) (c : Config) :
    lookup key (Dict.assign key v c) = some v := by
  induction c with
  | nil => simp [Dict.assign,lookup]
  | cons e c ih =>
    rw [Dict.assign]
    split
    · simp [lookup]
    · rename_i he
      simp only [lookup] at ih ⊢
      rw [List.find?_cons_of_neg (by simpa using he)]
      exact ih

lemma lookup_assign_of_ne {key other : String} (h : key ≠ other) (v : Json) (c : Config) :
    lookup other (Dict.assign key v c) = lookup other c := by
  induction c with
  | nil => simp [Dict.assign,lookup,h]
  | cons e c ih =>
    rw [Dict.assign]
    split
    · rename_i he
      simp only [lookup]
      rw [List.find?_cons_of_neg (by simpa using h), List.find?_cons_of_neg (by simpa [he] using h)]
    · simp only [lookup] at ih ⊢
      by_cases he : e.1 = other
      · rw [List.find?_cons_of_pos (by simpa using he),List.find?_cons_of_pos (by simpa using he)]
      · rw [List.find?_cons_of_neg (by simpa using he),List.find?_cons_of_neg (by simpa using he)]
        exact ih

def Apart (p q : List String) : Prop := ¬p <+: q ∧ ¬q <+: p

lemma getPath_nil {part : String} {rest : List String} : getPath [] (part::rest) = none := by
  cases rest <;> rfl

lemma setDottedValue_apart {p : List String} (h : Apart p q) (c : Config)
    (v : Json) : getPath (setDottedValue c p v) q = getPath c q := by
  induction p generalizing c q with
  | nil => exact absurd (List.nil_prefix) h.1
  | cons a p ih =>
    cases q with
    | nil => exact absurd (List.nil_prefix) h.2
    | cons b q =>
      by_cases hab : a = b
      · subst hab
        have hrest : Apart p q := by
          refine ⟨fun hp => h.1 ?_,fun hq => h.2 ?_⟩
          · exact List.cons_prefix_cons.mpr ⟨rfl,hp⟩
          · exact List.cons_prefix_cons.mpr ⟨rfl,hq⟩
        cases p with
        | nil => exact absurd (List.nil_prefix) hrest.1
        | cons a' p =>
          cases q with
          | nil => exact absurd (List.nil_prefix) hrest.2
          | cons b' q =>
            simp only [setDottedValue,getPath]
            rw [lookup_assign_self]
            dsimp only
            rw [ih hrest]
            generalize lookup a c = found
            cases found with
            | none => exact getPath_nil
            | some value =>
              cases value with
              | obj entries => rfl
              | null | bool | int | float | str | arr => exact getPath_nil
      · have hlookup : ∀ v, lookup b (Dict.assign a v c) = lookup b c := fun v =>
          lookup_assign_of_ne hab v c
        have hget : ∀ v, getPath (Dict.assign a v c) (b::q) = getPath c (b::q) := by
          intro v
          cases q with
          | nil => exact hlookup v
          | cons b' q =>
            simp only [getPath]
            rw [hlookup]
        cases p with
        | nil => exact hget v
        | cons a' p => exact hget _

def changed (config : Config) (changes : List (ChangePath × Json)) : Config :=
  changes.foldl (fun c change => setDottedValue c (pathParts change.1.show) change.2) config

def SparesPath (changes : List (ChangePath × Json)) (q : List String) : Prop :=
  ∀ change ∈ changes, Apart (pathParts change.1.show) q

lemma changed_spares (h : SparesPath changes q) (config : Config) :
    getPath (changed config changes) q = getPath config q := by
  induction changes generalizing config with
  | nil => rfl
  | cons change changes ih =>
    have htail : SparesPath changes q := fun x hx => h x (List.mem_cons_of_mem _ hx)
    exact (ih htail _).trans (setDottedValue_apart (h change (by simp)) config change.2)

/-- A snapshot: what a validation, or the reading of a source, comes to. -/
def ConfigEnv.Dump (env : ConfigEnv) (config : Config) : Prop :=
  ∃ c, env.validate c = .ok config ∨ env.readConfig c = .ok config

def documentRoute : List String := ["graph_memory","document_route_weight"]
def graphRoute : List String := ["graph_memory","graph_route_weight"]

/-- A weight as the model reads it; a text may be a number. -/
def routeWeight (parse : String → Option ℚ) : Json → Option ℚ
  | .bool b => some (if b then 1 else 0)
  | .int n => some n
  | .float q => some q
  | .str s => parse s
  | _ => none

def setRouteWeights (c : Config) (document graph : ℚ) : Config :=
  setDottedValue (setDottedValue c documentRoute (.float document)) graphRoute (.float graph)

/-- `GraphMemoryConfig.validate_route_weights`, in doubles. -/
def validateRouteWeights (parse : String → Option ℚ) (c : Config) : Config :=
  match (getPath c documentRoute).bind (routeWeight parse),
    (getPath c graphRoute).bind (routeWeight parse) with
  | some document, some graph =>
    let total := toDouble (document+graph)
    if total ≤ 0 then setRouteWeights c (toDouble (65 / 100)) (toDouble (35 / 100))
    else if total ≠ 1 then setRouteWeights c (toDouble (document / total)) (toDouble (graph / total))
    else c
  | _, _ => c

/-- Of the values that stand in a snapshot, the validation of a candidate rewrites the route weights
only. -/
def ConfigEnv.Normalises (env : ConfigEnv) (parse : String → Option ℚ) : Prop :=
  ∀ config changes snapshot, env.Dump config →
  env.validate (changed config changes) = .ok snapshot →
    ∀ q, SparesPath changes q →
      getPath snapshot q = getPath (validateRouteWeights parse (changed config changes)) q

lemma readSourceState_reads
    (h : env.readSourceState source = .ok (config,revision)) :
    env.readConfig source = .ok config := by
  unfold ConfigEnv.readSourceState at h
  split at h
  · cases h
  rename_i hread
  split at h
  · cases h
  · cases h
    exact hread

lemma candidate_validates (h : env.candidate config changes = .ok (snapshot,revision)) :
    env.validate (changed config changes) = .ok snapshot := by
  unfold ConfigEnv.candidate at h
  split at h
  · cases h
  dsimp only at h
  split at h
  · cases h
  rename_i hvalidate
  split at h
  · cases h
  · cases h
    exact hvalidate

structure Dumped (env : ConfigEnv) (w : World) : Prop where
  manager : env.Dump w.manager.config
  saving : ∀ s, w.saving = some s → env.Dump s.candidate

lemma reconcileSource_dump (h : env.Dump w.manager.config) (hm : w.reconcileSource env = .ok m) :
    env.Dump m.config := by
  rcases World.reconcileSource_cases hm with rfl | hpublished
  · exact h
  · exact ⟨w.source,.inr (readSourceState_reads hpublished)⟩

lemma Dumped.load (h : World.load env source = .ok w) : Dumped env w := by
  unfold World.load at h
  cases hread : env.readSourceState source with
  | error message =>
    rw [hread] at h
    cases h
  | ok read =>
    rw [hread] at h
    cases h
    exact ⟨⟨source,.inr (readSourceState_reads hread)⟩,fun s hs => (by cases hs)⟩

lemma saved_dump (hw : env.Dump w.manager.config) (hs : env.Dump s.candidate) :
    env.Dump (w.saved env s).1.manager.config := by
  have hsaved := World.saved_saved env w s
  generalize w.saved env s = after at hsaved ⊢
  cases hsaved with
  | unread message hread => exact hw
  | published config hread => exact hs
  | overtaken config revision hread hne => exact ⟨w.source,.inr (readSourceState_reads hread)⟩

lemma Dumped.step (h : Dumped env w) (e : Event) : Dumped env (w.step env e) := by
  unfold World.step World.next
  cases hsaving : w.saving with
  | none =>
    cases e with
    | edit f => exact ⟨h.manager,fun s hs => by simp at hs⟩
    | snapshot =>
      cases hm : w.reconcileSource env with
      | error message => exact h
      | ok m => exact ⟨reconcileSource_dump h.manager hm,fun s hs => by simp at hs⟩
    | apply r =>
      dsimp only [World.applyConfigChanges]
      have henters := World.enter_enters env w r
      generalize w.enter env r = entry at henters
      cases henters with
      | unread message => exact h
      | raised _ _ hm | unchanged _ hm =>
        exact ⟨reconcileSource_dump h.manager hm,fun s hs => by simp [hsaving] at hs⟩
      | published m snapshot revision hm hrevision hcandidate =>
        exact ⟨⟨_,.inl (candidate_validates hcandidate)⟩,fun s hs => by simp [hsaving] at hs⟩
      | installed m snapshot revision hm hrevision hcandidate =>
        have hdump : env.Dump snapshot := ⟨_,.inl (candidate_validates hcandidate)⟩
        dsimp only
        split
        · refine ⟨reconcileSource_dump h.manager hm,fun s hs => ?_⟩
          cases hs
          exact hdump
        · refine ⟨saved_dump (reconcileSource_dump h.manager hm) hdump,fun s hs => ?_⟩
          rw [saved_idle] at hs
          cases hs
    | cancel | saved | saveFailed => exact h
  | some s =>
    have hs := h.saving s hsaving
    cases e with
    | edit | cancel =>
      refine ⟨h.manager,fun s' hs' => ?_⟩
      cases hs'
      exact hs
    | saved =>
      refine ⟨saved_dump h.manager hs,fun s' hs' => ?_⟩
      rw [saved_idle] at hs'
      cases hs'
    | saveFailed message => exact ⟨h.manager,fun s hs => (by cases hs)⟩
    | snapshot | apply => exact h

/-- A call that does not persist, or ends at once, leaves the source as it is; one that persists
leaves what the source reads as at the paths its changes are not about. -/
def Framed (env : ConfigEnv) (w : World) (e : Event) : Prop :=
  ∀ r, e = .apply r → w.saving = none →
    match w.enter env r with
    | .ended _ _ => (w.step env e).source = w.source
    | .installed _ _ => r.persist = true ∧ ∀ c, env.readConfig w.source = .ok c →
        ∀ q, SparesPath r.changes q → getPath (w.step env e).source q = getPath c q

/-- A call that writes finds a snapshot which has, with the changes and the route weights that these
lead to, what the source reads as at the other paths. -/
def Agreeing (env : ConfigEnv) (parse : String → Option ℚ) (w : World) (e : Event) : Prop :=
  ∀ r w' s, e = .apply r → w.saving = none → w.enter env r = .installed w' s →
    ∀ c, env.readConfig w.source = .ok c → ∀ q, SparesPath r.changes q →
      getPath (validateRouteWeights parse (changed w'.manager.config r.changes)) q = getPath c q

/-- Where the route weights add up to one after the changes, that is what the snapshot itself has.
-/
lemma validateRouteWeights_spares {parse : String → Option ℚ} (h : SparesPath changes q)
    (hbalanced : ∀ document graph,
      (getPath (changed config changes) documentRoute).bind (routeWeight parse) = some document →
      (getPath (changed config changes) graphRoute).bind (routeWeight parse) = some graph →
      toDouble (document+graph) = 1) :
    getPath (validateRouteWeights parse (changed config changes)) q = getPath config q := by
  rw [← changed_spares h config]
  unfold validateRouteWeights
  split
  · rename_i document graph hdocument hgraph
    rw [hbalanced document graph hdocument hgraph,if_neg (by norm_num),if_neg (by simp)]
  · rfl

lemma saved_source (env : ConfigEnv) (w : World) (s : Saving) :
    (w.saved env s).1.source = w.source := by
  have hsaved := World.saved_saved env w s
  generalize w.saved env s = after at hsaved ⊢
  cases hsaved <;> rfl

lemma enter_persists {w' : World} (h : w.enter env r = .installed w' s) : r.persist = true := by
  unfold World.enter at h
  split at h
  · cases h
  split at h
  · cases h
  split at h
  · cases h
  split at h
  · cases h
  split at h
  · assumption
  · cases h

lemma step_installed_source (hsaving : w.saving = none) (henter : w.enter env r = .installed w' s) :
    (w.step env (.apply r)).source = w'.source := by
  unfold World.step World.next
  rw [hsaving]
  dsimp only [World.applyConfigChanges]
  rw [henter]
  dsimp only
  split
  · rfl
  · exact saved_source env w' s

/-- What a call that writes leaves in the source is what the snapshot had, apart from its
changes and the route weights. -/
theorem framed_iff_agreeing {parse : String → Option ℚ} (hnormalises : env.Normalises parse)
    (h : Dumped env w) (e : Event) : Framed env w e ↔ Agreeing env parse w e := by
  constructor
  · rintro hframed r w' s rfl hsaving henter c hread q hq
    have hall := hframed r rfl hsaving
    rw [henter] at hall
    have hsource := hall.2 c hread q hq
    have hstep := step_installed_source hsaving henter
    have henters := World.enter_enters env w r
    rw [henter] at henters
    cases henters with
    | installed m snapshot revision hm hrevision hcandidate =>
      rw [hstep] at hsource
      have hkept := hnormalises _ _ _ (reconcileSource_dump h.manager hm) (candidate_validates hcandidate) q hq
      exact hkept.symm.trans hsource
  · rintro hagree r rfl hsaving
    have henters := World.enter_enters env w r
    cases henter : w.enter env r with
    | ended w' done =>
      have hstep : (w.step env (.apply r)).source = w'.source := by
        unfold World.step World.next
        rw [hsaving]
        dsimp only [World.applyConfigChanges]
        rw [henter]
      rw [henter] at henters
      rw [hstep]
      cases henters <;> rfl
    | installed w' s =>
      refine ⟨enter_persists henter,fun c hread q hq => ?_⟩
      have hstep := step_installed_source hsaving henter
      have hagrees := hagree r w' s rfl hsaving henter c hread q hq
      rw [henter] at henters
      rw [hstep]
      cases henters with
      | installed m snapshot revision hm hrevision hcandidate =>
        have hkept := hnormalises _ _ _ (reconcileSource_dump h.manager hm) (candidate_validates hcandidate) q hq
        exact hkept.trans hagrees

def noNumber : String → Option ℚ := fun _ => none

def routedEnv : ConfigEnv :=
  { sampleEnv with validate := fun c => .ok (validateRouteWeights noNumber c) }

lemma routedEnv_normalises : routedEnv.Normalises noNumber := by
  intro config changes snapshot _ hvalidate q _
  cases hvalidate
  rfl

def textRequest (key value : String) (persist : Bool) : ApplyRequest where
  changes := [(.text key,.str value)]
  persist

end Memora.Configuration
