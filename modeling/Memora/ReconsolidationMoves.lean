import Memora.ReconsolidationSystem

/-! A candidate and its two intents change together. Every transaction of the store makes one move
at one candidate, and none of the moves goes back. -/
namespace Memora.Reconsolidation
open Engine
open Canonical (pythonStrip)

structure View where
  candidate : Option Candidate
  application : Option ApplyOp
  rollback : Option RollbackOp

def Store.view (s : Store) (id : String) : View :=
  ⟨s.candidates.get? id,s.applyOps.get? id,s.rollbackOps.get? id⟩

inductive Move : View → View → Prop
  | stage {a : Option ApplyOp} {r : Option RollbackOp} {c : Candidate} (status : c.status = .pending)
      (applied : c.appliedRevision = none) : Move ⟨none,a,r⟩ ⟨some c,a,r⟩
  | reject {r : Option RollbackOp} {c : Candidate} (reason : String) (status : c.status = .pending) :
      Move ⟨some c,none,r⟩ ⟨some { c with status := .rejected, reasonCode := reason },none,r⟩
  | beginApply {r : Option RollbackOp} {c : Candidate} (target : Metadata)
      (status : c.status = .pending) :
      Move ⟨some c,none,r⟩
        ⟨some c,some { expectedRevision := c.sourceRevision, targetMetadata := target },r⟩
  | completeApply {a : ApplyOp} {r : Option RollbackOp} {c : Candidate} (reason : String)
      (applied : Option (String × Metadata)) (status : c.status = .pending)
      (opened : a.status = .pending) :
      Move ⟨some c,some a,r⟩ ⟨some (c.closed reason applied),none,r⟩
  | blockApply {a : ApplyOp} {r : Option RollbackOp} {c : Candidate} (reason : String)
      (status : c.status = .pending) (opened : a.status = .pending) :
      Move ⟨some c,some a,r⟩ ⟨some { c with status := .failed, reasonCode := reason },
        some { a with status := .blocked, reasonCode := reason },r⟩
  | requireRecovery {a : ApplyOp} {r : Option RollbackOp} {c : Candidate} (reason : String)
      (status : c.status = .pending) (opened : a.status = .pending) :
      Move ⟨some c,some a,r⟩
        ⟨some { c with reasonCode := reason },some { a with reasonCode := reason },r⟩
  | beginRollback {a : Option ApplyOp} {c : Candidate} (expected : String)
      (status : c.status = .approved)
      (applied : pythonStrip (c.appliedRevision.getD "") = expected) (revision : expected ≠ "") :
      Move ⟨some c,a,none⟩ ⟨some c,a,some { expectedRevision := expected }⟩
  | cancel {c : Option Candidate} {a : Option ApplyOp} {r : RollbackOp} (opened : r.status = .pending) :
      Move ⟨c,a,some r⟩ ⟨c,a,none⟩
  | blockRollback {c : Option Candidate} {a : Option ApplyOp} {r : RollbackOp} (reason : String)
      (opened : r.status = .pending) :
      Move ⟨c,a,some r⟩ ⟨c,a,some { r with status := .blocked, reasonCode := reason }⟩
  | completeRollback {a : Option ApplyOp} {r : RollbackOp} {c : Candidate}
      (status : c.status = .approved) (opened : r.status = .pending) :
      Move ⟨some c,a,some r⟩ ⟨some { c with status := .rolledBack, reasonCode := "restored" },a,none⟩

structure MovesAt (id : String) (s s' : Store) : Prop where
  others : ∀ id', id' ≠ id → s'.view id' = s.view id'
  move : Move (s.view id) (s'.view id)

variable {s s' : Store} {id : String} {c c' : Candidate} {expected : String}

lemma get?_pop_self {ν : Type*} (d : Dict String ν) (k : String) : (d.pop k).get? k = none := by
  rw [Option.eq_none_iff_forall_ne_some]
  intro v hv
  exact (Dict.get?_pop.mp hv).2 rfl

lemma others_set {ν : Type*} {d : Dict String ν} {x : ν} :
    ∀ k ≠ id, (d.set id x).get? k = d.get? k :=
  fun _ => Dict.get?_set_of_ne

lemma others_pop {ν : Type*} {d : Dict String ν} : ∀ k ≠ id, (d.pop id).get? k = d.get? k :=
  fun _ => Dict.get?_pop_of_ne

lemma MovesAt.of_views {v v' : View} (hold : s.view id = v) (hnew : s'.view id = v')
    (hmove : Move v v')
    (hcandidate : ∀ id' ≠ id, s'.candidates.get? id' = s.candidates.get? id')
    (happly : ∀ id' ≠ id, s'.applyOps.get? id' = s.applyOps.get? id')
    (hrollback : ∀ id' ≠ id, s'.rollbackOps.get? id' = s.rollbackOps.get? id') :
    MovesAt id s s' where
  others id' hne := by rw [Store.view,Store.view,hcandidate id' hne,happly id'
    hne,hrollback id' hne]
  move := by rwa [hold,hnew]

lemma beginApply_ok {target : Metadata} (h : s.beginApply id expected target = .ok (s',c)) :
    MovesAt id s s' ∧ s.view id = ⟨some c,none,s.rollbackOps.get? id⟩ ∧
      c.status = .pending ∧ c.sourceRevision = expected ∧
      s'.view id = ⟨some c,some { expectedRevision := expected, targetMetadata := target },
        s.rollbackOps.get? id⟩ := by
  unfold Store.beginApply at h
  cases hc : s.candidates.get? id with
  | none => simp [hc] at h
  | some d =>
    simp only [hc] at h
    split_ifs at h with hstatus hop hrevision
    obtain ⟨rfl,rfl⟩ := Prod.mk.inj (Except.ok.inj h)
    have hstatus : d.status = .pending := by simpa using hstatus
    have hop : s.applyOps.get? id = none := by simpa using hop
    have hrevision : d.sourceRevision = expected := by simpa using hrevision
    subst hrevision
    have hold : s.view id = ⟨some d,none,s.rollbackOps.get? id⟩ := by
      rw [Store.view,hc,hop]
    refine ⟨.of_views hold ?_ (.beginApply target hstatus) (fun _ _ => rfl) others_set
      (fun _ _ => rfl),hold,hstatus,rfl,?_⟩
    · simp [Store.view,hc]
    · simp [Store.view,hc]

variable {reason : String}

lemma completeApply_ok {applied : Option (String × Metadata)}
    (h : s.completeApply id reason applied = .ok (s',c')) :
    MovesAt id s s' ∧ (∀ x ∈ applied, blank x.1 = false) ∧ ∃ c, s.candidates.get? id = some c ∧
      s'.view id = ⟨some (c.closed reason applied),none,s.rollbackOps.get? id⟩ := by
  unfold Store.completeApply at h
  split at h
  · cases h
  rename_i hblank
  split at h
  · cases h
  rename_i hpending
  have hop : ∃ a, s.applyOps.get? id = some a ∧ a.status = .pending := by
    simpa [Store.applyPending,Option.any_eq_true] using hpending
  obtain ⟨a,ha,hopen⟩ := hop
  cases hc : s.candidates.get? id with
  | none => simp [hc] at h
  | some c =>
    simp only [hc] at h
    split at h
    · cases h
    rename_i hstatus
    cases h
    have hold : s.view id = ⟨some c,some a,s.rollbackOps.get? id⟩ := by
      rw [Store.view,hc,ha]
    have hnew : Store.view (Store.audit { s with
          candidates := s.candidates.set id (c.closed reason applied)
          applyOps := s.applyOps.pop id } id (if applied.isSome then .apply else .reject) reason) id =
        ⟨some (c.closed reason applied),none,s.rollbackOps.get? id⟩ := by
      simp [Store.view,Store.audit,get?_pop_self]
    refine ⟨.of_views hold hnew (.completeApply reason applied (by simpa using hstatus) hopen)
      others_set others_pop (fun _ _ => rfl),fun x hx => ?_,c,rfl,hnew⟩
    · obtain rfl := Option.mem_def.mp hx
      simpa using hblank

lemma openApply_ok {f : Candidate → ApplyOp → Store} {e e' : StoreError}
    (h : (match s.candidates.get? id with
      | none => .error e
      | some c => if c.status ≠ .pending then .error e else match s.applyOps.get? id with
        | none => .error e'
        | some op => if op.status ≠ .pending then .error e' else .ok (f c op)) = Except.ok s') :
    ∃ c a, s.candidates.get? id = some c ∧ s.view id = ⟨some c,some a,s.rollbackOps.get? id⟩ ∧
      c.status = .pending ∧ a.status = .pending ∧ s' = f c a := by
  cases hc : s.candidates.get? id with
  | none => simp [hc] at h
  | some c =>
    simp only [hc] at h
    cases ha : s.applyOps.get? id with
    | none =>
      simp only [ha] at h
      split at h <;> cases h
    | some a =>
      simp only [ha] at h
      split_ifs at h with hstatus hopen
      exact ⟨c,a,rfl,by rw [Store.view,hc,ha],not_not.mp hstatus,not_not.mp hopen, (Except.ok.inj h).symm⟩

lemma markApplyBlocked_ok (h : s.markApplyBlocked id reason = .ok s') :
    MovesAt id s s' ∧ (∃ a, a.status = .blocked ∧ s'.applyOps.get? id = some a) ∧
      ∃ c, s.candidates.get? id = some c ∧
        s'.candidates.get? id = some { c with status := .failed, reasonCode := reason } := by
  obtain ⟨c,a,hc,hold,hstatus,hopen,rfl⟩ := openApply_ok h
  refine ⟨.of_views hold ?_ (.blockApply reason hstatus hopen) others_set others_set
    (fun _ _ => rfl),⟨_,?_,Dict.get?_set_self⟩,c,hc,Dict.get?_set_self⟩
  · simp [Store.view,Store.audit]
  · rfl

lemma markApplyRecoveryRequired_ok (h : s.markApplyRecoveryRequired id reason = .ok s') :
    MovesAt id s s' ∧
      ∃ c, s.candidates.get? id = some c ∧ s'.candidates.get? id = some { c with reasonCode := reason } := by
  obtain ⟨c,a,hc,hold,hstatus,hopen,rfl⟩ := openApply_ok h
  refine ⟨.of_views hold ?_ (.requireRecovery reason hstatus hopen) others_set others_set
    (fun _ _ => rfl),c,hc,Dict.get?_set_self⟩
  simp [Store.view]

lemma beginRollback_ok (h : s.beginRollback id expected = .ok s') :
    MovesAt id s s' ∧ s.rollbackOps.get? id = none ∧
      (∃ c, s.candidates.get? id = some c ∧ c.status = .approved) ∧
      s'.view id = ⟨s.candidates.get? id,s.applyOps.get? id, some { expectedRevision := expected }⟩ := by
  unfold Store.beginRollback at h
  cases hc : s.candidates.get? id with
  | none => simp [hc] at h
  | some c =>
    simp only [hc] at h
    split at h
    · cases h
    rename_i hstatus
    split at h
    · cases h
    rename_i hrevision
    split at h
    · cases h
    rename_i hop
    cases h
    have hop : s.rollbackOps.get? id = none := by simpa using hop
    have hrevision : pythonStrip (c.appliedRevision.getD "") ≠ "" ∧
        pythonStrip (c.appliedRevision.getD "") = expected := by simpa using hrevision
    have hold : s.view id = ⟨some c,s.applyOps.get? id,none⟩ := by rw [Store.view,hc,hop]
    refine ⟨.of_views hold ?_ (.beginRollback expected (by simpa using hstatus)
      hrevision.2 (hrevision.2 ▸ hrevision.1)) (fun _ _ => rfl) (fun _ _ => rfl)
      others_set,hop,⟨c,rfl,by simpa using hstatus⟩,?_⟩
    · simp [Store.view,hc]
    · simp [Store.view,hc]

lemma cancelRollback_moves {r : RollbackOp} (hr : s.rollbackOps.get? id = some r)
    (hopen : r.status = .pending) : MovesAt id s (s.cancelRollback id) ∧
      (s.cancelRollback id).rollbackOps.get? id = none := by
  have hgone : (s.cancelRollback id).rollbackOps.get? id = none := get?_pop_self _ _
  have hold : s.view id = ⟨s.candidates.get? id,s.applyOps.get? id,some r⟩ := by
    rw [Store.view,hr]
  have hnew : (s.cancelRollback id).view id = ⟨s.candidates.get? id,s.applyOps.get? id,none⟩ := by
    rw [Store.view,hgone]
    rfl
  exact ⟨.of_views hold hnew (.cancel hopen) (fun _ _ => rfl) (fun _ _ => rfl) others_pop,hgone⟩

lemma markRollbackBlocked_ok (h : s.markRollbackBlocked id reason = .ok s') :
    MovesAt id s s' ∧ (∃ r, r.status = .blocked ∧ s'.rollbackOps.get? id = some r) ∧
      s'.candidates = s.candidates := by
  unfold Store.markRollbackBlocked at h
  cases hr : s.rollbackOps.get? id with
  | none => simp [hr] at h
  | some r =>
    simp only [hr] at h
    split at h
    · cases h
    rename_i hopen
    cases h
    have hold : s.view id = ⟨s.candidates.get? id,s.applyOps.get? id,some r⟩ := by
      rw [Store.view,hr]
    refine ⟨.of_views hold ?_ (.blockRollback reason (by simpa using hopen)) (fun _ _ => rfl) (fun _ _ => rfl)
      others_set,⟨_,?_,Dict.get?_set_self⟩,rfl⟩
    · simp [Store.view]
    · rfl

lemma completeRollback_ok (h : s.completeRollback id = .ok (s',c')) :
    MovesAt id s s' ∧ c'.status = .rolledBack ∧ s'.view id = ⟨some c',s.applyOps.get? id,none⟩ := by
  unfold Store.completeRollback at h
  cases hc : s.candidates.get? id with
  | none => simp [hc] at h
  | some c =>
    simp only [hc] at h
    split at h
    · cases h
    rename_i hstatus
    split at h
    · cases h
    rename_i hpending
    have hop : ∃ r, s.rollbackOps.get? id = some r ∧ r.status = .pending := by
      simpa [Option.any_eq_true] using hpending
    obtain ⟨r,hr,hopen⟩ := hop
    cases h
    have hold : s.view id = ⟨some c,s.applyOps.get? id,some r⟩ := by rw [Store.view,hc,hr]
    have hnew : Store.view (Store.audit { s with
          candidates := s.candidates.set id { c with status := .rolledBack, reasonCode := "restored" }
          rollbackOps := s.rollbackOps.pop id } id .rollback "restored") id =
        ⟨some { c with status := .rolledBack, reasonCode := "restored" },s.applyOps.get? id, none⟩ := by
      simp [Store.view,Store.audit,get?_pop_self]
    exact ⟨.of_views hold hnew (.completeRollback (by simpa using hstatus) hopen) others_set
      (fun _ _ => rfl) others_pop,rfl,hnew⟩

lemma transition_reject_ok (h : s.transition id .pending .rejected reason .reject = .ok (s',c')) :
    MovesAt id s s' ∧ s.applyOps.get? id = none ∧ s'.candidates.get? id = some c' ∧
    c'.status = .rejected := by
  unfold Store.transition at h
  split at h
  · cases h
  rename_i hop
  have hop : s.applyOps.get? id = none := by simpa using hop
  cases hc : s.candidates.get? id with
  | none => simp [hc] at h
  | some c =>
    simp only [hc] at h
    split at h
    · cases h
    rename_i hstatus
    cases h
    have hold : s.view id = ⟨some c,none,s.rollbackOps.get? id⟩ := by rw [Store.view,hc,hop]
    refine ⟨.of_views hold ?_ (.reject reason (by simpa using hstatus)) others_set (fun _ _ => rfl)
      (fun _ _ => rfl),hop,Dict.get?_set_self,rfl⟩
    · simp [Store.view,Store.audit,hop]

theorem stageCandidate_moves {memoryId : ℕ} {revision old proposed : String} {metadata : Metadata}
    (hfresh : s.candidates.get? id = none) :
    (s.stageCandidate memoryId revision old metadata proposed id).1 = s ∨
      MovesAt id s (s.stageCandidate memoryId revision old metadata proposed id).1 ∧
        ∃ c, (s.stageCandidate memoryId revision old metadata proposed id).1.candidates.get? id =
          some c ∧ c.memoryId = memoryId ∧ c.sourceRevision = revision ∧ c.appliedRevision = none := by
  unfold Store.stageCandidate
  split
  · exact .inl rfl
  · right
    have hold : s.view id = ⟨none,s.applyOps.get? id,s.rollbackOps.get? id⟩ := by
      rw [Store.view,hfresh]
    let c : Candidate :=
      { memoryId := memoryId, sourceRevision := revision, oldContent := old, oldMetadata := metadata,
        proposedContent := proposed }
    have hget : (s.candidates.set id c).get? id = some c := Dict.get?_set_self
    have hnew : Store.view (Store.audit { s with candidates := s.candidates.set id c } id .stage
        "proposed") id = ⟨some c,s.applyOps.get? id,s.rollbackOps.get? id⟩ := by
      simp only [Store.view,Store.audit,hget]
    exact ⟨.of_views hold hnew (.stage rfl rfl) others_set (fun _ _ => rfl) (fun _ _ => rfl),
      c,hget,rfl,rfl,rfl⟩

def OpStatus.keeps : OpStatus → CandidateStatus
  | .pending => .pending
  | .blocked => .failed

structure View.Sound (v : View) : Prop where
  application : ∀ a, v.application = some a → ∃ c, v.candidate = some c ∧
    a.expectedRevision = c.sourceRevision ∧ c.status = a.status.keeps
  rollback : ∀ r, v.rollback = some r → ∃ c, v.candidate = some c ∧ c.status = .approved
  unapplied : ∀ c, v.candidate = some c → c.status ≠ .approved → c.status ≠ .rolledBack →
    c.appliedRevision = none
  approved : ∀ c, v.candidate = some c → c.status = .approved → c.appliedRevision.isSome

variable {v v' : View} {e : Bool × String}

lemma Move.sound (h : Move v v') (hs : v.Sound) : v'.Sound := by
  obtain ⟨happ,hroll,hnone,hsome⟩ := hs
  cases h with
  | stage status applied =>
    refine ⟨fun a ha => ?_,fun r hr => ?_,fun c hc _ _ => ?_,fun c hc hstatus => ?_⟩
    · obtain ⟨c,hc,-⟩ := happ a ha
      cases hc
    · obtain ⟨c,hc,-⟩ := hroll r hr
      cases hc
    · cases hc
      exact applied
    · cases hc
      exact absurd (status.symm.trans hstatus) (by simp)
  | @reject _ d reason status =>
    refine ⟨fun a ha => absurd ha (by simp),fun r hr => ?_,fun c hc _ _ => ?_,
      fun c hc hstatus => ?_⟩
    · obtain ⟨c,hc,happroved⟩ := hroll r hr
      cases hc
      rw [status] at happroved
      cases happroved
    · cases hc
      exact hnone d rfl (by simp [status]) (by simp [status])
    · cases hc
      cases hstatus
  | beginApply target status =>
    refine ⟨fun a ha => ?_,hroll,hnone,hsome⟩
    cases ha
    exact ⟨_,rfl,rfl,status⟩
  | completeApply reason applied status opened =>
    refine ⟨fun a ha => absurd ha (by simp),fun r hr => ?_,fun c hc happ _ => ?_,
      fun c hc hstatus => ?_⟩
    · obtain ⟨c,hc,happroved⟩ := hroll r hr
      cases hc
      rw [status] at happroved
      cases happroved
    · cases hc
      cases applied with
      | none => rfl
      | some x => exact absurd rfl happ
    · cases hc
      cases applied with
      | none => exact absurd hstatus (by simp [Candidate.closed])
      | some x => rfl
  | @blockApply _ _ d reason status opened =>
    refine ⟨fun a ha => ?_,fun r hr => ?_,fun c hc _ _ => ?_,fun c hc hstatus => ?_⟩
    · cases ha
      obtain ⟨c,hc,hexpected,-⟩ := happ _ rfl
      cases hc
      exact ⟨_,rfl,hexpected,rfl⟩
    · obtain ⟨c,hc,happroved⟩ := hroll r hr
      cases hc
      rw [status] at happroved
      cases happroved
    · cases hc
      exact hnone d rfl (by simp [status]) (by simp [status])
    · cases hc
      cases hstatus
  | @requireRecovery _ _ d reason status opened =>
    refine ⟨fun a ha => ?_,fun r hr => ?_,fun c hc _ _ => ?_,fun c hc hstatus => ?_⟩
    · cases ha
      obtain ⟨c,hc,hexpected,hstatus⟩ := happ _ rfl
      cases hc
      exact ⟨_,rfl,hexpected,hstatus⟩
    · obtain ⟨c,hc,happroved⟩ := hroll r hr
      cases hc
      exact ⟨_,rfl,happroved⟩
    · cases hc
      exact hnone d rfl (by simp [status]) (by simp [status])
    · cases hc
      exact absurd (status.symm.trans hstatus) (by simp)
  | beginRollback expected status applied revision =>
    exact ⟨happ,fun r _ => ⟨_,rfl,status⟩,hnone,hsome⟩
  | cancel opened => exact ⟨happ,fun r hr => absurd hr (by simp),hnone,hsome⟩
  | blockRollback reason opened =>
    exact ⟨happ,fun r _ => hroll _ rfl,hnone,hsome⟩
  | completeRollback status opened =>
    refine ⟨fun a ha => ?_,fun r hr => absurd hr (by simp),fun c hc _ hback => ?_,
      fun c hc hstatus => ?_⟩
    · obtain ⟨c,hc,-,hstatus⟩ := happ a ha
      cases hc
      rw [status] at hstatus
      cases ha' : a.status <;> simp [ha',OpStatus.keeps] at hstatus
    · cases hc
      exact absurd rfl hback
    · cases hc
      cases hstatus

structure Candidate.Same (c c' : Candidate) : Prop where
  memoryId : c'.memoryId = c.memoryId
  sourceRevision : c'.sourceRevision = c.sourceRevision
  oldContent : c'.oldContent = c.oldContent
  oldMetadata : c'.oldMetadata = c.oldMetadata
  proposedContent : c'.proposedContent = c.proposedContent

lemma Candidate.Same.refl (c : Candidate) : c.Same c := ⟨rfl,rfl,rfl,rfl,rfl⟩

lemma Move.candidate (h : Move v v') (hc : v.candidate = some c) :
    ∃ c', v'.candidate = some c' ∧ c.Same c' ∧ (c.status ≠ .pending →
      c'.appliedRevision = c.appliedRevision ∧ c'.appliedMetadata = c.appliedMetadata ∧
        c'.status ≠ .pending) := by
  cases h with
  | stage status applied => cases hc
  | reject reason status | completeApply reason applied status opened
  | blockApply reason status opened | requireRecovery reason status opened =>
    cases hc
    exact ⟨_,rfl,⟨rfl,rfl,rfl,rfl,rfl⟩,fun hne => absurd status hne⟩
  | beginApply target status =>
    cases hc
    exact ⟨_,rfl,.refl _,fun hne => absurd status hne⟩
  | beginRollback expected status applied revision =>
    cases hc
    exact ⟨_,rfl,.refl _,fun hne => ⟨rfl,rfl,hne⟩⟩
  | cancel | blockRollback => exact ⟨c,hc,.refl c,fun hne => ⟨rfl,rfl,hne⟩⟩
  | completeRollback status opened =>
    cases hc
    exact ⟨_,rfl,⟨rfl,rfl,rfl,rfl,rfl⟩,fun _ => ⟨rfl,rfl,by simp⟩⟩

lemma Move.never_reopens (h : Move v v') : (∀ a, v.application = some a → a.status = .blocked →
      ∃ a', v'.application = some a' ∧ a'.status = .blocked) ∧
    (∀ r, v.rollback = some r → r.status = .blocked →
      ∃ r', v'.rollback = some r' ∧ r'.status = .blocked) ∧
    (∀ c, v.candidate = some c → c.status ≠ .pending → v.application = none → v'.application = none) ∧
    (∀ c, v.candidate = some c → c.status = .rolledBack →
      (∃ c', v'.candidate = some c' ∧ c'.status = .rolledBack) ∧ (v.rollback = none → v'.rollback = none)) := by
  cases h <;> simp_all

lemma Move.applied (h : Move v v') (hc : v.candidate = some c) (hc' : v'.candidate = some c') :
    c'.appliedRevision = c.appliedRevision ∨
      ∃ reason applied, c' = c.closed reason applied ∧ v'.application = none := by
  cases h with
  | stage status applied => cases hc
  | completeApply reason applied status opened =>
    cases hc
    cases hc'
    exact .inr ⟨reason,applied,rfl,rfl⟩
  | reject reason status | blockApply reason status opened | requireRecovery reason status opened
  | completeRollback status opened =>
    cases hc
    cases hc'
    exact .inl rfl
  | beginApply target status | beginRollback expected status applied revision =>
    cases hc
    cases hc'
    exact .inl rfl
  | cancel opened | blockRollback reason opened =>
    obtain rfl := Option.some.inj (hc.symm.trans hc')
    exact .inl rfl

theorem Move.not_rejected (h : Move v v') (hc : v.candidate = some c)
    (hstatus : c.status ≠ .rejected) (hpending : c.status = .pending → v.application.isSome)
    (hclosed : ∀ reason, v'.candidate ≠ some (c.closed reason none)) :
    ∃ c', v'.candidate = some c' ∧ c.Same c' ∧ c'.status ≠ .rejected ∧
      (c'.status = .pending → v'.application.isSome) := by
  cases h with
  | stage status applied => cases hc
  | reject _ status | beginApply _ status =>
    cases hc
    exact absurd (hpending status) (by simp)
  | completeApply reason applied status opened =>
    cases hc
    cases applied with
    | none => exact absurd rfl (hclosed reason)
    | some x =>
      exact ⟨_,rfl,⟨rfl,rfl,rfl,rfl,rfl⟩,by simp [Candidate.closed],
        by simp [Candidate.closed]⟩
  | blockApply | completeRollback =>
    cases hc
    exact ⟨_,rfl,⟨rfl,rfl,rfl,rfl,rfl⟩,by simp,by simp⟩
  | requireRecovery reason status opened =>
    cases hc
    exact ⟨_,rfl,⟨rfl,rfl,rfl,rfl,rfl⟩,hstatus,fun _ => rfl⟩
  | beginRollback expected status applied revision =>
    cases hc
    exact ⟨_,rfl,.refl _,hstatus,hpending⟩
  | cancel | blockRollback => exact ⟨c,hc,.refl c,hstatus,hpending⟩

def Store.Opened (s : Store) : Bool × String → Prop
  | (true,id) => ∃ a, s.applyOps.get? id = some a ∧ a.status = .pending
  | (false,id) => ∃ r, s.rollbackOps.get? id = some r ∧ r.status = .pending

lemma Store.Opened.other (h : s.Opened e) (hm : MovesAt id s s') (hne : e.2 ≠ id) :
    s'.Opened e := by
  have hview := hm.others e.2 hne
  obtain ⟨kind,id'⟩ := e
  have happ : s'.applyOps.get? id' = s.applyOps.get? id' := congrArg View.application hview
  have hroll : s'.rollbackOps.get? id' = s.rollbackOps.get? id' := congrArg View.rollback hview
  cases kind with
  | true =>
    rw [Store.Opened,happ]
    exact h
  | false =>
    rw [Store.Opened,hroll]
    exact h

lemma Store.Opened.status (h : s.Opened e) (hs : (s.view e.2).Sound) :
    ∃ c, s.candidates.get? e.2 = some c ∧ c.status = if e.1 then .pending else .approved := by
  obtain ⟨kind,id⟩ := e
  cases kind with
  | true =>
    obtain ⟨a,ha,hopen⟩ := h
    obtain ⟨c,hc,-,hstatus⟩ := hs.application a ha
    rw [hopen] at hstatus
    exact ⟨c,hc,hstatus⟩
  | false =>
    obtain ⟨r,hr,-⟩ := h
    exact hs.rollback r hr

lemma Store.Opened.same_kind {e e' : Bool × String} (h : s.Opened e) (h' : s.Opened e')
    (hs : (s.view e.2).Sound) (hid : e'.2 = e.2) : e' = e := by
  obtain ⟨c,hc,hstatus⟩ := h.status hs
  obtain ⟨c',hc',hstatus'⟩ := h'.status (by rw [hid]; exact hs)
  rw [hid,hc] at hc'
  cases hc'
  rw [hstatus] at hstatus'
  have hkind : e'.1 = e.1 := by
    cases h1 : e.1 <;> cases h2 : e'.1 <;> simp [h1,h2] at hstatus' ⊢
  exact Prod.ext hkind hid

end Memora.Reconsolidation
