import Memora.ConfigModels
import Memora.RunLaws

/-! The snapshot and its revision are always published together. A call that raises takes back the
source as it was when the call came, and so forgets, or keeps too much of, what was edited while
it was saving. -/
namespace Memora.Configuration
open RunLaws

variable {env : ConfigEnv} {w w' : World} {s : Saving} {r : ApplyRequest} {m : Manager}
    {source : Config}

def Saving.touched (s : Saving) : Config := s.edits.foldl (fun c f => f c) s.candidate

def Saving.untouched (s : Saving) : Config := s.edits.foldl (fun c f => f c) s.sourceBefore

namespace World

def untouched (w : World) : Config := (w.saving.map Saving.untouched).getD w.source

def sourceFound (w : World) : Config := (w.saving.map Saving.sourceBefore).getD w.source

def found (w : World) : Manager := (w.saving.map Saving.found).getD w.manager

end World

def ConfigEnv.Published (env : ConfigEnv) (source : Config) (m : Manager) : Prop :=
  env.readSourceState source = .ok (m.config,m.revision)

def ConfigEnv.Sealed (env : ConfigEnv) (m : Manager) : Prop :=
  env.computeRevision m.config = .ok m.revision

lemma ConfigEnv.Published.sealed (h : env.Published source m) :
    env.Sealed m := by
  unfold ConfigEnv.Published ConfigEnv.readSourceState at h
  split at h
  · cases h
  split at h
  · cases h
  · rename_i hrevision
    cases h
    exact hrevision

lemma World.reconcileSource_cases (h : w.reconcileSource env = .ok m) :
    m = w.manager ∨ env.Published w.source m := by
  unfold World.reconcileSource at h
  split at h
  · cases h
  rename_i hread
  split at h
  · exact .inl (Except.ok.inj h).symm
  · cases h
    exact .inr hread

lemma World.reconcileSource_sealed (hw : env.Sealed w.manager)
    (h : w.reconcileSource env = .ok m) : env.Sealed m := by
  rcases World.reconcileSource_cases h with rfl | hpublished
  · exact hw
  · exact hpublished.sealed

lemma ConfigEnv.candidate_sealed {config snapshot : Config}
    {changes : List (ChangePath × Memora.Representation.Json)} {revision : String}
    (h : env.candidate config changes = .ok (snapshot,revision)) :
    env.computeRevision snapshot = .ok revision := by
  unfold ConfigEnv.candidate at h
  split at h
  · cases h
  dsimp only at h
  split at h
  · cases h
  split at h
  · cases h
  · rename_i hrevision
    cases h
    exact hrevision

inductive Enters (env : ConfigEnv) (w : World) (r : ApplyRequest) : Entry → Prop
  | unread (message : String) : Enters env w r (.ended w ⟨r,.error (.failed message)⟩)
  | raised (m : Manager) (e : ApplyError) (hm : w.reconcileSource env = .ok m) :
      Enters env w r (.ended { w with manager := m } ⟨r,.error e⟩)
  | unchanged (m : Manager) (hm : w.reconcileSource env = .ok m)
      (hrevision : ∀ x, r.expectedRevision = some x → m.revision = x) (hempty : r.changes = []) :
      Enters env w r (.ended { w with manager := m } ⟨r,.ok ⟨m.revision,[]⟩⟩)
  | published (m : Manager) (snapshot : Config) (revision : String)
      (hm : w.reconcileSource env = .ok m)
      (hrevision : ∀ x, r.expectedRevision = some x → m.revision = x)
      (hcandidate : env.candidate m.config r.changes = .ok (snapshot,revision)) :
      Enters env w r
        (.ended { w with manager := { m with config := snapshot, revision := revision } }
          ⟨r,.ok ⟨revision,r.changedPaths⟩⟩)
  | installed (m : Manager) (snapshot : Config) (revision : String)
      (hm : w.reconcileSource env = .ok m)
      (hrevision : ∀ x, r.expectedRevision = some x → m.revision = x)
      (hcandidate : env.candidate m.config r.changes = .ok (snapshot,revision)) :
      Enters env w r
        (.installed
          { w with
            source := snapshot
            manager := m
            saving := some (w.beginSave r snapshot revision) }
          (w.beginSave r snapshot revision))

lemma World.enter_enters (env : ConfigEnv) (w : World) (r : ApplyRequest) :
    Enters env w r (w.enter env r) := by
  unfold World.enter
  cases hm : w.reconcileSource env with
  | error message => exact .unread message
  | ok m =>
    dsimp only
    split
    · exact .raised m _ hm
    rename_i hstale
    have hrevision : ∀ x, r.expectedRevision = some x → m.revision = x := by
      intro x hx
      rw [hx] at hstale
      exact (by simpa using hstale : x = m.revision).symm
    split
    · rename_i hempty
      exact .unchanged m hm hrevision (List.isEmpty_iff.mp hempty)
    cases hcandidate : env.candidate m.config r.changes with
    | error e => exact .raised m e hm
    | ok candidate =>
      obtain ⟨snapshot,revision⟩ := candidate
      dsimp only
      split
      · exact .installed m snapshot revision hm hrevision hcandidate
      · exact .published m snapshot revision hm hrevision hcandidate

inductive Saved (env : ConfigEnv) (w : World) (s : Saving) : World × Option Finished → Prop
  | unread (message : String) (hread : env.readSourceState w.source = .error message) :
      Saved env w s ({ w with saving := none },some ⟨s.request,.error (.failed message)⟩)
  | published (config : Config)
      (hread : env.readSourceState w.source = .ok (config,s.candidateRevision)) :
      Saved env w s
        ({ w with
            saving := none
            manager := ⟨s.candidate,s.candidateRevision,s.candidateRevision⟩ },
          some ⟨s.request,if s.cancellationRequested then .error .cancelled
            else .ok ⟨s.candidateRevision,s.request.changedPaths⟩⟩)
  | overtaken (config : Config) (revision : String)
      (hread : env.readSourceState w.source = .ok (config,revision))
      (hne : revision ≠ s.candidateRevision) :
      Saved env w s
        ({ w with
            saving := none
            manager := ⟨config,revision,revision⟩ },
          some ⟨s.request,.error <| if s.cancellationRequested then .cancelled
            else .conflict ((s.request.expectedRevision.filter (· ≠ "")).getD
              s.candidateRevision) revision⟩)

lemma World.saved_saved (env : ConfigEnv) (w : World) (s : Saving) :
    Saved env w s (w.saved env s) := by
  unfold World.saved
  dsimp only
  cases hread : env.readSourceState w.source with
  | error message => exact .unread message hread
  | ok read =>
    obtain ⟨config,revision⟩ := read
    dsimp only
    split
    · rename_i heq
      subst heq
      exact .published config hread
    · rename_i hne
      exact .overtaken config revision hread hne

structure InProgress (env : ConfigEnv) (w : World) (s : Saving) : Prop where
  source : w.source = s.touched
  candidate : env.computeRevision s.candidate = .ok s.candidateRevision
  manager : w.manager = s.found ∨ env.Published s.sourceBefore w.manager
  expected : ∀ x, s.request.expectedRevision = some x → w.manager.revision = x

structure Sound (env : ConfigEnv) (w : World) : Prop where
  sealed : env.Sealed w.manager
  saving : ∀ s, w.saving = some s → InProgress env w s

lemma Sound.load (h : World.load env source = .ok w) : Sound env w := by
  unfold World.load at h
  cases hread : env.readSourceState source with
  | error message =>
    rw [hread] at h
    cases h
  | ok read =>
    rw [hread] at h
    cases h
    exact ⟨ConfigEnv.Published.sealed hread,fun s hs => by cases hs⟩

lemma saved_idle (env : ConfigEnv) (w : World) (s : Saving) : (w.saved env s).1.saving = none := by
  have hsaved := World.saved_saved env w s
  generalize w.saved env s = after at hsaved ⊢
  cases hsaved <;> rfl

lemma saved_sealed (hw : env.Sealed w.manager)
    (hs : env.computeRevision s.candidate = .ok s.candidateRevision) :
    env.Sealed (w.saved env s).1.manager := by
  have hsaved := World.saved_saved env w s
  generalize w.saved env s = after at hsaved ⊢
  cases hsaved with
  | unread message hread => exact hw
  | published config hread => exact hs
  | overtaken config revision hread hne =>
    exact ConfigEnv.Published.sealed (m := ⟨config,revision,revision⟩) hread

lemma Sound.step (h : Sound env w) (e : Event) : Sound env (w.step env e) := by
  unfold World.step World.next
  cases hsaving : w.saving with
  | none =>
    cases e with
    | edit f => exact ⟨h.sealed,fun s hs => by simp at hs⟩
    | snapshot =>
      cases hm : w.reconcileSource env with
      | error message => exact h
      | ok m =>
        exact ⟨World.reconcileSource_sealed h.sealed hm,fun s hs => by simp at hs⟩
    | apply r =>
      dsimp only [World.applyConfigChanges]
      have henters := World.enter_enters env w r
      generalize w.enter env r = entry at henters
      cases henters with
      | unread message => exact h
      | raised _ _ hm | unchanged _ hm =>
        exact ⟨World.reconcileSource_sealed h.sealed hm,fun s hs => by simp [hsaving] at hs⟩
      | published m snapshot revision hm hrevision hcandidate =>
        exact ⟨ConfigEnv.candidate_sealed hcandidate,fun s hs => by simp [hsaving] at hs⟩
      | installed m snapshot revision hm hrevision hcandidate =>
        have hsealed := World.reconcileSource_sealed h.sealed hm
        have hcandidate' := ConfigEnv.candidate_sealed hcandidate
        dsimp only
        split
        · refine ⟨hsealed,fun s hs => ?_⟩
          cases hs
          exact ⟨rfl,hcandidate',World.reconcileSource_cases hm,hrevision⟩
        · refine ⟨saved_sealed hsealed hcandidate',fun s hs => ?_⟩
          rw [saved_idle] at hs
          cases hs
    | cancel | saved | saveFailed => exact h
  | some s =>
    have hs := h.saving s hsaving
    cases e with
    | edit f =>
      refine ⟨h.sealed,fun s' hs' => ?_⟩
      cases hs'
      refine ⟨?_,hs.candidate,hs.manager,hs.expected⟩
      unfold Saving.touched
      rw [List.foldl_append]
      exact congrArg f hs.source
    | cancel =>
      refine ⟨h.sealed,fun s' hs' => ?_⟩
      cases hs'
      exact ⟨hs.source,hs.candidate,hs.manager,hs.expected⟩
    | saved =>
      refine ⟨saved_sealed h.sealed hs.candidate,fun s' hs' => ?_⟩
      rw [saved_idle] at hs'
      cases hs'
    | saveFailed message => exact ⟨h.sealed,fun s hs => by cases hs⟩
    | snapshot | apply => exact h

end Memora.Configuration
