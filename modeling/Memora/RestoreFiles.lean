import Memora.RestoreDisk

/-! A planned file is untouched, moved away, replaced by its payload or put back. What each status
of a plan says of its files, and what each operation does to them. -/
namespace Memora.Backup
open Restore

/-- A staged plan: its files, what was live under their names and what was staged. No planned
name is that of a log, and a database without a log beside it opens as it is. -/
structure Target (C : Type) where
  sqlite : Sqlite C
  operationId : String
  names : List String
  original : Directory C
  content : String → C
  nodup : names.Nodup
  notLog : ∀ n ∈ names, ∀ m, n ≠ walName m
  settles : ∀ c, sqlite.settle c none = c

variable {C : Type} {t : Target C} {d d' : Disk C} {f : RestoreFileProgress} {n : String}
    {dir : Directory C}

namespace Target

variable (t : Target C)

def staged (name : String) : Option (Entry C) := some (.file (t.content name))

variable (d : Disk C)

def payload : Directory C := payloadOf d t.operationId

def previous : Directory C := previousOf d t.operationId

/-- A file that an install replaces: absent or not a link. -/
def Replaceable (n : String) : Prop :=
  t.original n = none ∨ ∃ c, t.original n = some (.file c)

def Kept (n : String) : Prop :=
  (d.live n = t.original n ∧ t.previous d n = none) ∨
  (t.previous d n = t.original n ∧ t.Replaceable n ∧
      (d.live n = none ∨ d.live n = t.staged n))

variable (f : RestoreFileProgress)

def Untouched : Prop :=
  d.live f.name = t.original f.name ∧ t.previous d f.name = none ∧
    t.payload d f.name = t.staged f.name ∧ f.installed = false

/-- Moved away; the payload is still to be installed. -/
def MovedAway : Prop :=
  d.live f.name = none ∧ t.previous d f.name = t.original f.name ∧
    (∃ c, t.original f.name = some (.file c)) ∧ t.payload d f.name = t.staged f.name ∧
    f.installed = false

def Replaced : Prop :=
  d.live f.name = t.staged f.name ∧ t.previous d f.name = t.original f.name ∧ t.Replaceable f.name

def Applies : Prop :=
  t.Untouched d f ∨ t.MovedAway d f ∨ (t.Replaced d f ∧ t.payload d f.name = none)

def Recorded : Prop :=
  t.original f.name = none → d.live f.name = t.staged f.name → f.installed = true

def Returned (n : String) : Prop :=
  d.live n = t.original n ∧ t.previous d n = none

def Ready : Prop :=
  t.Kept d f.name ∧ t.Recorded d f ∧
    (t.previous d f.name = none → t.original f.name ≠ none → f.installed = false)

def Phase : RestoreStatus → Prop
  | .staged | .reloadScheduled | .failedBeforeApply => t.Untouched d f
  | .applying => t.Applies d f
  | .validating => t.Replaced d f ∧ t.payload d f.name = none ∧ f.installed = true
  | .rollingBack | .rollbackPending => t.Kept d f.name ∧ t.Recorded d f
  | .rolledBack => d.live f.name = t.original f.name
  | .succeeded => d.live f.name = t.staged f.name
  | .cancelled => False

def Clean (live : Directory C) : Prop :=
  ∀ n ∈ t.names, isDatabaseName n = true → ∀ c, t.sqlite.settle c (live.content? (walName n)) = c

def SameFile (d d' : Disk C) (n : String) : Prop :=
  d'.live n = d.live n ∧ t.previous d' n = t.previous d n ∧ t.payload d' n = t.payload d n

end Target

namespace Target.SameFile

lemma refl (t : Target C) (d : Disk C) (n : String) : t.SameFile d d n := ⟨rfl,rfl,rfl⟩

lemma kept (h : t.SameFile d d' n) (hk : t.Kept d n) : t.Kept d' n := by
  obtain ⟨hlive,hprevious,-⟩ := h
  unfold Target.Kept
  rw [hlive,hprevious]
  exact hk

lemma recorded (h : t.SameFile d d' f.name) (hr : t.Recorded d f) : t.Recorded d' f := by
  unfold Target.Recorded
  rw [h.1]
  exact hr

lemma ready (h : t.SameFile d d' f.name) (hr : t.Ready d f) : t.Ready d' f := by
  refine ⟨h.kept hr.1,h.recorded hr.2.1,?_⟩
  rw [h.2.1]
  exact hr.2.2

lemma returned (h : t.SameFile d d' n) (hr : t.Returned d n) : t.Returned d' n := by
  unfold Target.Returned
  rw [h.1,h.2.1]
  exact hr

lemma applies (h : t.SameFile d d' f.name) (ha : t.Applies d f) : t.Applies d' f := by
  obtain ⟨hlive,hprevious,hpayload⟩ := h
  unfold Target.Applies Target.Untouched Target.MovedAway Target.Replaced
  rw [hlive,hprevious,hpayload]
  exact ha

lemma phase {status : RestoreStatus} (h : t.SameFile d d' f.name) (hp : t.Phase d f status) :
    t.Phase d' f status := by
  obtain ⟨hlive,hprevious,hpayload⟩ := h
  cases status <;> simp only [Target.Phase,Target.Untouched,Target.Applies,Target.MovedAway,Target.Replaced,
      Target.Kept,Target.Recorded,hlive,hprevious,hpayload] at hp ⊢ <;>
    exact hp

lemma untouched (h : t.SameFile d d' f.name) (hu : t.Untouched d f) : t.Untouched d' f := by
  have hphase : t.Phase d f .staged := hu
  exact h.phase hphase

end Target.SameFile

lemma Target.Returned.kept (h : t.Returned d n) : t.Kept d n := .inl h

lemma Target.Returned.recorded (h : t.Returned d f.name) : t.Recorded d f := by
  intro habsent hlive
  rw [h.1,habsent] at hlive
  cases hlive

lemma Target.Replaced.ready (h : t.Replaced d f) (hr : t.Recorded d f) : t.Ready d f := by
  refine ⟨.inr ⟨h.2.1,h.2.2,.inr h.1⟩,hr,?_⟩
  intro hprevious hpresent
  exact absurd (h.2.1.symm.trans hprevious) hpresent

/-- A file in the middle of an apply can be rolled back once its progress is recorded. -/
theorem Target.Applies.ready (h : t.Applies d f) (hr : t.Recorded d f) : t.Ready d f := by
  rcases h with ⟨hlive,hprevious,-,hflag⟩ | ⟨hlive,hprevious,hpresent,-,hflag⟩ | ⟨hreplaced,-⟩
  · exact ⟨.inl ⟨hlive,hprevious⟩,hr,fun _ _ => hflag⟩
  · exact ⟨.inr ⟨hprevious,.inr hpresent,.inl hlive⟩,hr,fun _ _ => hflag⟩
  · exact hreplaced.ready hr

lemma Target.Untouched.recorded (h : t.Untouched d f) : t.Recorded d f := by
  intro habsent hlive
  rw [h.1,habsent] at hlive
  cases hlive

lemma Target.MovedAway.recorded (h : t.MovedAway d f) : t.Recorded d f := by
  intro habsent
  obtain ⟨c,hc⟩ := h.2.2.1
  rw [habsent] at hc
  cases hc

lemma Directory.eq_file (hfile : dir.isFile n = true)
    (hlink : dir.isSymlink n = false) : ∃ c, dir n = some (.file c) := by
  unfold Directory.isFile at hfile
  unfold Directory.isSymlink at hlink
  cases hentry : dir n with
  | none =>
    rw [hentry] at hfile
    cases hfile
  | some entry =>
    cases entry with
    | file content => exact ⟨content,rfl⟩
    | symlink target =>
      rw [hentry] at hlink
      cases hlink

lemma Directory.eq_none (hfile : dir.isFile n = false) (hlink : dir.isSymlink n = false) :
    dir n = none := by
  unfold Directory.isFile at hfile
  unfold Directory.isSymlink at hlink
  cases hentry : dir n with
  | none => rfl
  | some entry =>
    rw [hentry] at hfile hlink
    cases entry with
    | file content => cases hfile
    | symlink target => cases hlink

section
variable {o : Operation C} {name n : String}

lemma previous_of (ho : d.operation? t.operationId = some o) : t.previous d = o.previous :=
  previousOf_eq ho

lemma payload_of (ho : d.operation? t.operationId = some o) : t.payload d = o.payload :=
  payloadOf_eq ho

lemma sameFile_writePlan (t : Target C) (d : Disk C) (plan : RestorePlan) (n : String) :
    t.SameFile d (d.writePlan plan) n :=
  ⟨rfl,by simp [Target.previous],by simp [Target.payload]⟩

lemma sameFile_moveToPrevious (ho : d.operation? t.operationId = some o) (hn : n ≠ name) :
    t.SameFile d (moveToPrevious t.operationId name d) n := by
  refine ⟨?_,?_,?_⟩
  · rw [moveToPrevious_live,Directory.put_of_ne _ _ hn]
  · rw [previous_of (moveToPrevious_operation ho),previous_of ho]
    exact Directory.put_of_ne _ _ hn
  · rw [payload_of (moveToPrevious_operation ho),payload_of ho]

lemma sameFile_installPayload (ho : d.operation? t.operationId = some o) (hn : n ≠ name) :
    t.SameFile d (installPayload t.operationId name d) n := by
  refine ⟨?_,?_,?_⟩
  · rw [installPayload_live ho,Directory.put_of_ne _ _ hn]
  · rw [previous_of (installPayload_operation ho),previous_of ho]
  · rw [payload_of (installPayload_operation ho),payload_of ho]
    exact Directory.put_of_ne _ _ hn

lemma sameFile_moveBack (ho : d.operation? t.operationId = some o) (hn : n ≠ name) :
    t.SameFile d (moveBack t.operationId name d) n := by
  refine ⟨?_,?_,?_⟩
  · rw [moveBack_live ho,Directory.put_of_ne _ _ hn]
  · rw [previous_of (moveBack_operation ho),previous_of ho]
    exact Directory.put_of_ne _ _ hn
  · rw [payload_of (moveBack_operation ho),payload_of ho]

lemma sameFile_unlinkLive (t : Target C) (d : Disk C) (hn : n ≠ name) :
    t.SameFile d (unlinkLive name d) n :=
  ⟨Directory.put_of_ne _ _ hn,rfl,rfl⟩

lemma movedAway_of_untouched (ho : d.operation? t.operationId = some o)
    (h : t.Untouched d f) (hlive : d.live.isFile f.name = true)
    (hlink : d.live.isSymlink f.name = false) :
    t.MovedAway (moveToPrevious t.operationId f.name d) f := by
  obtain ⟨hl,-,hpayload,hflag⟩ := h
  refine ⟨?_,?_,?_,?_,hflag⟩
  · rw [moveToPrevious_live,Directory.put_same]
  · rw [previous_of (moveToPrevious_operation ho)]
    exact (Directory.put_same ..).trans hl
  · rw [← hl]
    exact Directory.eq_file hlive hlink
  · rw [payload_of (moveToPrevious_operation ho),← payload_of ho,hpayload]

theorem replaced_of_room (ho : d.operation? t.operationId = some o)
    (hprevious : t.previous d f.name = t.original f.name) (hroom : t.Replaceable f.name)
    (hpayload : t.payload d f.name = t.staged f.name) :
    t.Replaced (installPayload t.operationId f.name d) f ∧
      t.payload (installPayload t.operationId f.name d) f.name = none := by
  refine ⟨⟨?_,?_,hroom⟩,?_⟩
  · rw [installPayload_live ho,Directory.put_same,← payload_of ho,hpayload]
  · rw [previous_of (installPayload_operation ho),← previous_of ho,hprevious]
  · rw [payload_of (installPayload_operation ho)]
    exact Directory.put_same ..

lemma returned_of_moveBack (ho : d.operation? t.operationId = some o)
    (hprevious : t.previous d n = t.original n) : t.Returned (moveBack t.operationId n d) n := by
  refine ⟨?_,?_⟩
  · rw [moveBack_live ho,Directory.put_same,← previous_of ho,hprevious]
  · rw [previous_of (moveBack_operation ho)]
    exact Directory.put_same ..

end

end Memora.Backup
