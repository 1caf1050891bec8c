import Memora.ReconsolidationSafety

/-! The invariant goes through each step of a call, and with it through every run. -/
namespace Memora.Reconsolidation
open Engine
open Canonical (pythonStrip)

variable {env : Env} {u : Prop} {s : System} {j j' : Job} {x : Input} {i : ℕ} {d m : MemoryRow}
  {memory : Option MemoryRow} {id : String} {reading : Reading} {l : Load} {applied : String}
  {jobs : List Job}

lemma put_split (h : jobs[i]? = some j) (o : Option Job) :
    ∃ l₁ l₂, jobs = l₁++j::l₂ ∧ jobs.eraseIdx i = l₁++l₂ ∧
    System.put jobs i o = l₁++(o.toList++l₂) := by
  obtain ⟨hi,hj⟩ := List.getElem?_eq_some_iff.mp h
  refine ⟨jobs.take i,jobs.drop (i+1),?_,List.eraseIdx_eq_take_drop_succ _ _,?_⟩
  · rw [← hj,List.getElem_cons_drop,List.take_append_drop]
  · cases o with
    | none => exact List.eraseIdx_eq_take_drop_succ _ _
    | some j' =>
      show jobs.set i j' = _
      rw [List.set_eq_take_append_cons_drop,if_pos hi]
      rfl

lemma Inv.others (h : Inv env u s) (hj : s.jobs[i]? = some j) {e : Bool × String}
    (he : j.intent = some e) : ∀ j' ∈ s.jobs.eraseIdx i, j'.intent ≠ some e := by
  obtain ⟨l₁,l₂,hjobs,herase,-⟩ := put_split hj none
  have hnodup := h.distinct
  rw [hjobs,List.filterMap_append,List.filterMap_cons,he] at hnodup
  intro j' hj' he'
  rw [herase] at hj'
  have hmem : e ∈ l₁.filterMap Job.intent++l₂.filterMap Job.intent := by
    rw [← List.filterMap_append]
    exact List.mem_filterMap.mpr ⟨j',hj',he'⟩
  have hperm : (l₁.filterMap Job.intent++e::l₂.filterMap Job.intent).Perm
      (e::(l₁.filterMap Job.intent++l₂.filterMap Job.intent)) := List.perm_middle
  exact (List.nodup_cons.mp (hperm.nodup_iff.mp hnodup)).1 hmem

lemma Inv.perm (h : Inv env u s) (hp : jobs.Perm s.jobs) : Inv env u { s with jobs := jobs } := by
  have he : s.Extends env { s with jobs := jobs } := .of_rows rfl rfl
  refine ⟨h.current,h.unique,h.sound,fun id c hc => (h.candidates id c hc).mono he,
    fun p hp' => (h.proposals p hp').mono he,fun j hj => ?_,
    (hp.filterMap _).nodup_iff.mpr h.distinct,h.committed⟩
  exact (h.jobs j (hp.mem_iff.mp hj)).frame he (h.jobs j (hp.mem_iff.mp hj)).follows fun hid => hid

def System.without (s : System) (i : ℕ) : System := { s with jobs := s.jobs.eraseIdx i }

lemma Inv.without (h : Inv env u s) (i : ℕ) : Inv env u (s.without i) :=
  h.of_sublist (s.jobs.eraseIdx_sublist i) (List.Sublist.refl _)

theorem Inv.put_back {s' : System} (h : Inv env u s') (hjobs : s'.jobs = s.jobs.eraseIdx i)
    (hj : s.jobs[i]? = some j) (o : Option Job) (ho : ∀ j' ∈ o, JobInv env u s' j')
    (hnew : ∀ j' ∈ o, ∀ e ∈ j'.intent, ∀ j'' ∈ s'.jobs, j''.intent ≠ some e) :
    Inv env u { s' with jobs := System.put s.jobs i o } := by
  obtain ⟨l₁,l₂,-,herase,hput⟩ := put_split hj o
  cases o with
  | none =>
    rw [hput]
    simp only [Option.toList_none,List.nil_append]
    rw [← herase,← hjobs]
    exact h
  | some j' =>
    have hpushed := h.push (ho j' rfl) (hnew j' rfl)
    refine hpushed.perm ?_
    rw [hput,hjobs,herase]
    exact (List.perm_middle.trans (List.perm_append_singleton _ _).symm)

/-- What a call may have loaded: nothing, or a document under the stamps there are now. -/
def Job.Sees (env : Env) (u : Prop) (s : System) (j : Job) (memory : Option MemoryRow) : Prop :=
  ∀ m ∈ memory, ∃ d, s.Since j.candidate.memoryId d j.known ∧
    m = stampedBy d (s.world.memories.get? j.candidate.memoryId) ∧ m.revision env ≠ "" ∧ (u → m = d)

lemma Job.Sees.recorded (h : j.Sees env u s memory) (hm : m ∈ memory)
    (hr : m.revision env = j.known) :
    (j.candidate.memoryId,m) ∈ s.held := by
  obtain ⟨d,hsince,rfl,-,-⟩ := h m hm
  obtain ⟨heq,-⟩ := hsince.loaded_eq hr
  rw [heq]
  exact hsince.1

theorem Job.Sees.approves (h : j.Sees env u s memory) (hr : s.Rows env) (hm : m ∈ memory)
    (ht : m.text = j.candidate.proposedContent) :
    m.revision env ≠ "" ∧ pythonStrip (m.revision env) = m.revision env ∧
      s.Approves env u j.candidate (m.revision env) := by
  obtain ⟨d,hsince,hmd,hne,hu⟩ := h m hm
  refine ⟨hne,revision_strip m,?_⟩
  by_cases hd : m = d
  · exact ⟨m,by rw [hd]; exact hsince.1,rfl,fun _ => ht⟩
  · rcases hsince.loaded env with heq | ⟨m',t,hcurrent,hstamp,-,hrev⟩
    · exact absurd (hmd.trans heq) hd
    · refine ⟨m',hr.current _ _ hcurrent,?_,fun hu' => absurd (hu hu') hd⟩
      rw [hmd,hrev]
      exact revision_of_stamp hstamp

lemma JobInv.sees (h : JobInv env u s j) (hstage : j.stage = .loading reading (.stamps d))
    (fails : Bool)
    (hu : u → ∀ m ∈ s.world.memories.get? j.candidate.memoryId, m = d) :
    j.Sees env u s (if fails then none
      else some (stampedBy d (s.world.memories.get? j.candidate.memoryId))) := by
  intro m hm
  cases fails with
  | true => cases hm
  | false =>
    have hm' : some (stampedBy d (s.world.memories.get? j.candidate.memoryId)) = some m := hm
    cases hm'
    have hsince := h.since reading d hstage
    have hne := h.dated reading d hstage
    refine ⟨d,hsince,rfl,?_,fun huntorn => ?_⟩
    · rcases hsince.loaded env with heq | ⟨m',t,-,-,-,hrev⟩
      · rwa [heq]
      · rw [hrev]
        exact t.strip.2
    · cases hrow : s.world.memories.get? j.candidate.memoryId with
      | none => rfl
      | some m' =>
        obtain rfl := hu huntorn m' hrow
        rfl

lemma loadedRevision_ne {memory : Option MemoryRow} (h : loadedRevision env memory ≠ "") :
    ∃ m, memory = some m := by
  cases memory with
  | none => exact absurd rfl h
  | some m => exact ⟨m,rfl⟩

lemma Job.intent_of_stage (hp : j.purpose = .rollback → (∀ l, j.stage ≠ .loading .visit l) ∧
    j.stage ≠ .beginning) : j.intent = some (j.purpose.applies,j.id) := by
  obtain ⟨p,id,c,e,t,st⟩ := j
  cases p with
  | apply | recoverApply | recoverRollback => rfl
  | rollback =>
    obtain ⟨hvisit,hbegin⟩ := hp rfl
    cases st with
    | loading reading l =>
      cases reading with
      | visit => exact absurd rfl (hvisit l)
      | update | verify => rfl
    | beginning => exact absurd rfl hbegin
    | writing g | refreshing | closing cl => rfl

lemma Inv.dated (h : Inv env u s) (hj : j ∈ s.jobs) : s.Dated env j.candidate.memoryId := by
  obtain ⟨c,hc,hsame,-⟩ := (h.jobs j hj).follows.candidate
  rw [← hsame.memoryId]
  exact (h.candidates _ c hc).dated

lemma Inv.passed (h : Inv env u s) (hj : j ∈ s.jobs) (hid : j.id ∈ s.committed) :
    s.Passed j.candidate.memoryId j.candidate.sourceRevision := by
  obtain ⟨c,hc,-,-,hpassed⟩ := h.committed j.id hid
  obtain ⟨c',hc',hsame,-⟩ := (h.jobs j hj).follows.candidate
  obtain rfl := Option.some.inj (hc.symm.trans hc')
  rw [← hsame.memoryId,← hsame.sourceRevision]
  exact hpassed

lemma JobInv.to_closing (h : JobInv env u s j) {cl : Closing}
    (hi : j.intent = some (j.purpose.applies,j.id)) (hcl : cl.applies = j.purpose.applies)
    (happ : ∀ reason r a, cl = .approve reason r a →
      r ≠ "" ∧ pythonStrip r = r ∧ s.Approves env u j.candidate r)
    (hcancel : cl = .cancel → j.purpose = .rollback)
    (hcommitted : j.id ∈ s.committed → j.purpose.applies = true →
      Job.past { j with stage := .closing cl }) : JobInv env u s { j with stage := .closing cl } where
  follows := by
    refine ⟨h.follows.candidate,?_⟩
    rw [Job.intent_of_stage fun _ => ⟨fun _ => by simp,by simp⟩,← hi]
    exact h.follows.intent
  known := h.known
  since reading d hd := absurd hd (by simp)
  dated reading d hd := absurd hd (by simp)
  beginning hb := absurd hb (by simp)
  armed ha := absurd ha (by simp [Job.armed])
  writing g hg := absurd hg (by simp)
  visiting := h.visiting
  refreshing hr := absurd hr (by simp)
  closing c hc := by
    obtain rfl : cl = c := by simpa using hc
    exact hcl
  approving reason r a hstage := happ reason r a (by simpa using hstage)
  cancelling hstage := hcancel (by simpa using hstage)
  committed := hcommitted

lemma JobInv.to_refreshing (h : JobInv env u s j)
    (hi : j.intent = some (j.purpose.applies,j.id)) (hp : j.purpose.applies = false) :
    JobInv env u s { j with stage := .refreshing } where
  follows := by
    refine ⟨h.follows.candidate,?_⟩
    rw [Job.intent_of_stage fun _ => ⟨fun _ => by simp,by simp⟩,← hi]
    exact h.follows.intent
  known := h.known
  since reading d hd := absurd hd (by simp)
  dated reading d hd := absurd hd (by simp)
  beginning hb := absurd hb (by simp)
  armed ha := absurd ha (by simp [Job.armed])
  writing g hg := absurd hg (by simp)
  visiting := h.visiting
  refreshing _ := hp
  closing c hc := absurd hc (by simp)
  approving reason r a hstage := absurd hstage (by simp)
  cancelling hstage := absurd hstage (by simp)
  committed _ happ := absurd (hp.symm.trans happ) (by simp)

lemma JobInv.to_update (h : JobInv env u s j) (target : Metadata)
    (hi : j.intent = some (j.purpose.applies,j.id)) (hexpected : j.expected = j.known)
    (hrow : j.purpose ≠ .apply →
      ∃ d, (j.candidate.memoryId,d) ∈ s.held ∧ j.Recorded env d)
    (hcommitted : ¬(j.id ∈ s.committed ∧ j.purpose.applies = true)) :
    JobInv env u s { j with target := target, stage := .loading .update .document } := by
  refine .of_loading rfl ⟨h.follows.candidate,?_⟩ h.known (fun _ => ⟨hexpected,hrow⟩) h.visiting
    fun hid happ => absurd ⟨hid,happ⟩ hcommitted
  rw [Job.intent_of_stage fun _ => ⟨fun _ => by simp,by simp⟩,← hi]
  exact h.follows.intent

lemma JobInv.to_stamps (h : JobInv env u s j) (hr : s.Rows env)
    (hdated : s.Dated env j.candidate.memoryId)
    (hstage : j.stage = .loading reading .document)
    (hm : s.world.memories.get? j.candidate.memoryId = some m)
    (hpassed : j.id ∈ s.committed → s.Passed j.candidate.memoryId j.candidate.sourceRevision) :
    JobInv env u s { j with stage := .loading reading (.stamps m) } where
  follows := by
    refine ⟨h.follows.candidate,fun e he => h.follows.intent e ?_⟩
    obtain ⟨p,id,c,ex,t,st⟩ := j
    obtain rfl : st = .loading reading .document := hstage
    cases p <;> cases reading <;> exact he
  known := h.known
  since reading' d hd := by
    obtain ⟨rfl,rfl⟩ : reading = reading' ∧ m = d := by simpa using hd
    exact ⟨hr.current _ _ hm,fun m' hm' => .inl (Option.some.inj (hm'.symm.trans hm))⟩
  dated reading' d hd := by
    obtain ⟨rfl,rfl⟩ : reading = reading' ∧ m = d := by simpa using hd
    exact hdated m hm
  beginning hb := absurd hb (by simp)
  armed ha := by
    refine h.armed ?_
    cases reading with
    | update => simp [Job.armed,hstage]
    | visit | verify => simp [Job.armed] at ha
  writing g hg := absurd hg (by simp)
  visiting := h.visiting
  refreshing hr := absurd hr (by simp)
  closing c hc := absurd hc (by simp)
  approving reason r a hcl := absurd hcl (by simp)
  cancelling hcl := absurd hcl (by simp)
  committed hid happ := by
    have hpast := h.committed hid happ
    cases reading with
    | visit => exact hpassed hid m hm
    | update => simp [Job.past,hstage] at hpast
    | verify => trivial

lemma Job.intent_of_purpose (hp : j.purpose ≠ .rollback) :
    j.intent = some (j.purpose.applies,j.id) :=
  Job.intent_of_stage fun h => absurd h hp

lemma JobInv.decided_apply (h : JobInv env u s j) (hr : s.Rows env)
    (hp : j.purpose = .recoverApply) (hsees : j.Sees env u s memory)
    (hcommitted : j.id ∈ s.committed → ∀ m ∈ memory, m.revision env ≠ j.candidate.sourceRevision) :
    JobInv env u s (j.decided (recoverApplyDecision env j.candidate j.expected j.target memory)) := by
  have hi : j.intent = some (j.purpose.applies,j.id) := Job.intent_of_purpose (by simp [hp])
  have happlies : j.purpose.applies = true := by rw [hp]; rfl
  have hexpected : j.expected = j.candidate.sourceRevision := h.visiting (by rw [hp]; rfl) happlies
  have hknown : j.known = j.candidate.sourceRevision := by rw [Job.known,happlies]; rfl
  have hblock : ∀ reason, JobInv env u s { j with stage := .closing (.blockApply reason) } :=
    fun reason => h.to_closing hi happlies.symm (fun _ _ _ hc => absurd hc (by simp))
      (fun hc => absurd hc (by simp)) fun _ _ => trivial
  cases memory with
  | none => exact hblock _
  | some m =>
    rw [recoverApplyDecision]
    by_cases htarget : j.target.isEmpty = true
    · rw [if_pos htarget]
      exact hblock _
    rw [if_neg htarget]
    by_cases hwritten : (decide (m.text = j.candidate.proposedContent) &&
        applyMetadataMatches m.metadata (applyTargetMetadata j.target)) = true
    · rw [if_pos hwritten]
      by_cases hrev : m.revision env = j.expected
      · rw [if_pos hrev]
        exact hblock _
      rw [if_neg hrev]
      have htext : m.text = j.candidate.proposedContent := by
        simp only [Bool.and_eq_true,decide_eq_true_eq] at hwritten
        exact hwritten.1
      refine h.to_closing hi happlies.symm (fun reason r a hc => ?_)
        (fun hc => absurd hc (by simp)) fun _ _ => trivial
      obtain ⟨-,rfl,-⟩ : _ ∧ m.revision env = r ∧ _ := by simpa using hc
      exact hsees.approves hr rfl htext
    rw [if_neg hwritten]
    by_cases hmoved : (decide (m.revision env ≠ j.expected) || decide (m.text ≠ j.candidate.oldContent) ||
        !metadataMatches m.metadata j.candidate.oldMetadata) = true
    · rw [if_pos hmoved]
      exact hblock _
    rw [if_neg hmoved]
    simp only [Bool.or_eq_true,decide_eq_true_eq,Bool.not_eq_true',not_or,not_not, Bool.not_eq_false] at hmoved
    obtain ⟨⟨hrev,htext⟩,hmeta⟩ := hmoved
    have hrev' : m.revision env = j.known := by rw [hknown,hrev,hexpected]
    refine h.to_update _ hi (by rw [hknown,hexpected]) (fun _ => ⟨m,?_,hrev',?_⟩) fun hc => ?_
    · exact hsees.recorded rfl hrev'
    · rw [if_pos happlies]
      exact ⟨htext,hmeta⟩
    · exact hcommitted hc.1 m rfl (hrev.trans hexpected)

lemma JobInv.decided_rollback (h : JobInv env u s j) (hp : j.purpose = .recoverRollback)
    (hsees : j.Sees env u s memory) :
    JobInv env u s (j.decided (recoverRollbackDecision env j.candidate j.expected memory)) := by
  have hi : j.intent = some (j.purpose.applies,j.id) := Job.intent_of_purpose (by simp [hp])
  have happlies : j.purpose.applies = false := by rw [hp]; rfl
  have hknown : j.known = pythonStrip (j.candidate.appliedRevision.getD "") := by
    rw [Job.known,happlies]
    rfl
  have hblock : ∀ reason, JobInv env u s { j with stage := .closing (.blockRollback reason) } :=
    fun reason => h.to_closing hi happlies.symm (fun _ _ _ hc => absurd hc (by simp))
      (fun hc => absurd hc (by simp)) fun _ happ => absurd (happlies.symm.trans happ) (by simp)
  rw [recoverRollbackDecision]
  by_cases hstatus : j.candidate.status ≠ .approved
  · rw [if_pos hstatus]
    exact hblock _
  rw [if_neg hstatus]
  by_cases hfound : loadedRevision env memory = ""
  · rw [if_pos hfound]
    exact hblock _
  rw [if_neg hfound]
  obtain ⟨m,rfl⟩ := loadedRevision_ne hfound
  cases hmeta : j.candidate.appliedMetadata with
  | none => exact hblock _
  | some metadata =>
    dsimp only
    by_cases happlied : j.candidate.appliedRevision.getD "" ≠ j.expected
    · rw [if_pos happlied]
      exact hblock _
    rw [if_neg happlied]
    by_cases hrev : loadedRevision env (some m) = j.expected
    · rw [if_pos hrev]
      by_cases hmoved : (decide (memoryContent (some m) ≠ j.candidate.proposedContent) ||
          !metadataMatches (memoryMetadata (some m)) metadata) = true
      · rw [if_pos hmoved]
        exact hblock _
      rw [if_neg hmoved]
      simp only [Bool.or_eq_true,decide_eq_true_eq,Bool.not_eq_true',not_or,not_not,
        Bool.not_eq_false] at hmoved
      have hrevision : m.revision env = j.expected := hrev
      have hsame : j.expected = j.known := by
        rw [hknown,not_not.mp happlied,← hrevision,revision_strip]
      have hrecorded : m.revision env = j.known := hrevision.trans hsame
      refine h.to_update _ hi hsame (fun _ => ⟨m,hsees.recorded rfl hrecorded,hrecorded,?_⟩)
        fun hc => absurd (happlies.symm.trans hc.2) (by simp)
      rw [happlies]
      exact ⟨hmoved.1,metadata,hmeta,hmoved.2⟩
    rw [if_neg hrev]
    by_cases hback : (decide (memoryContent (some m) = j.candidate.oldContent) &&
        metadataMatches (memoryMetadata (some m)) j.candidate.oldMetadata) = true
    · rw [if_pos hback]
      exact h.to_refreshing hi happlies
    · rw [if_neg hback]
      exact hblock _

lemma rollbackCheck_ok {c : Candidate} (h : rollbackCheck env c memory = .ok applied) :
    applied = pythonStrip (c.appliedRevision.getD "") ∧ ∃ m, memory = some m ∧
      m.revision env = applied ∧ m.text = c.proposedContent ∧
      ∃ a ∈ c.appliedMetadata, metadataMatches m.metadata a = true := by
  unfold rollbackCheck at h
  cases ha : c.appliedMetadata with
  | none => simp [ha] at h
  | some metadata =>
    simp only [ha] at h
    split_ifs at h with hmissing hfound hmoved
    obtain rfl := Except.ok.inj h
    obtain ⟨m,rfl⟩ := loadedRevision_ne hfound
    simp only [Bool.or_eq_true,decide_eq_true_eq,Bool.not_eq_true',not_or,not_not, Bool.not_eq_false] at hmoved
    obtain ⟨⟨hrev,htext⟩,hmeta⟩ := hmoved
    exact ⟨rfl,m,rfl,hrev,htext,metadata,rfl,hmeta⟩

lemma JobInv.to_beginning (h : JobInv env u s j) (hp : j.purpose = .rollback)
    (hknown : applied = j.known) (hrow : (j.candidate.memoryId,m) ∈ s.held)
    (hm : j.Recorded env m) :
    JobInv env u s { j with expected := applied, stage := .beginning } where
  follows := by
    refine ⟨h.follows.candidate,fun e he => ?_⟩
    have hnone : Job.intent { j with expected := applied, stage := .beginning } = none := by
      simp [Job.intent,hp]
    rw [hnone] at he
    cases he
  known := h.known
  since reading d hd := absurd hd (by simp)
  dated reading d hd := absurd hd (by simp)
  beginning _ := hp
  armed _ := ⟨hknown,fun _ => ⟨m,hrow,hm⟩⟩
  writing g hg := absurd hg (by simp)
  visiting _ happ := absurd happ (by simp [hp,Purpose.applies])
  refreshing hr := absurd hr (by simp)
  closing c hc := absurd hc (by simp)
  approving reason r a hcl := absurd hcl (by simp)
  cancelling hcl := absurd hcl (by simp)
  committed _ happ := absurd happ (by simp [hp,Purpose.applies])

lemma JobInv.visited (h : JobInv env u s j) (hr : s.Rows env)
    (hstage : j.stage = .loading .visit l) (hsees : j.Sees env u s memory)
    (hcommitted : j.id ∈ s.committed → j.purpose.applies = true →
      ∀ m ∈ memory, m.revision env ≠ j.candidate.sourceRevision)
    (hgo : j.visited env memory = some j') : JobInv env u s j' ∧ j'.intent = j.intent := by
  unfold Job.visited at hgo
  split at hgo
  · cases hgo
  · rename_i hp
    have happlies : j.purpose.applies = false := by rw [hp]; rfl
    have hknown : j.known = pythonStrip (j.candidate.appliedRevision.getD "") := by
      rw [Job.known,happlies]
      rfl
    have hi : j.intent = none := by simp [Job.intent,hp,hstage]
    cases hcheck : rollbackCheck env j.candidate memory with
    | error e => simp [hcheck] at hgo
    | ok applied =>
      rw [hcheck] at hgo
      cases hgo
      obtain ⟨happlied,m,rfl,hrev,htext,hmeta⟩ := rollbackCheck_ok hcheck
      have hsame : applied = j.known := happlied.trans hknown.symm
      have hrecorded : m.revision env = j.known := hrev.trans hsame
      refine ⟨h.to_beginning hp hsame (hsees.recorded rfl hrecorded) ⟨hrecorded,?_⟩,?_⟩
      · rw [happlies]
        exact ⟨htext,hmeta⟩
      · rw [hi]
        simp [Job.intent,hp]
  · rename_i hp
    cases hgo
    refine ⟨h.decided_apply hr hp hsees fun hid => hcommitted hid (by rw [hp]; rfl),?_⟩
    rw [Job.intent_of_purpose (j := j) (by simp [hp])]
    generalize recoverApplyDecision env j.candidate j.expected j.target memory = decision
    cases decision <;> exact Job.intent_of_purpose (by simp [Job.decided,hp])
  · rename_i hp
    cases hgo
    refine ⟨h.decided_rollback hp hsees,?_⟩
    rw [Job.intent_of_purpose (j := j) (by simp [hp])]
    generalize recoverRollbackDecision env j.candidate j.expected memory = decision
    cases decision <;> exact Job.intent_of_purpose (by simp [Job.decided,hp])

lemma prepareContent_guard {current requested : Metadata} {observed content expected : String}
    {now : ℚ} {g : GuardedWrite}
    (h : prepareContent env current observed content (some requested) expected now = .ok g) :
    expected ≠ "" := by
  unfold prepareContent at h
  split at h
  · cases h
  rename_i hobserved
  simp only [Bool.or_eq_true,decide_eq_true_eq,not_or,not_not] at hobserved
  rintro rfl
  exact hobserved.1 hobserved.2

lemma Job.failed_applies (j : Job) (reason : String) :
    (j.failed reason).applies = j.purpose.applies := by
  unfold Job.failed
  split <;> rename_i hp <;> rw [hp] <;> rfl

lemma Job.failed_cancel (j : Job) (reason : String) (h : j.failed reason = .cancel) :
    j.purpose = .rollback := by
  unfold Job.failed at h
  split at h <;> first | assumption | cases h

lemma JobInv.to_failed (h : JobInv env u s j) (reason : String)
    (hi : j.intent = some (j.purpose.applies,j.id)) (hpast : ¬j.past) :
    JobInv env u s { j with stage := .closing (j.failed reason) } := by
  refine h.to_closing hi (j.failed_applies reason) (fun reason' r a hc => ?_)
    (j.failed_cancel reason) fun hid happ => absurd (h.committed hid happ) hpast
  unfold Job.failed at hc
  split at hc <;> cases hc

lemma JobInv.to_writing (h : JobInv env u s j) (g : GuardedWrite)
    (hi : j.intent = some (j.purpose.applies,j.id)) (harmed : j.armed) (hne : j.expected ≠ "")
    (hpast : ¬j.past) : JobInv env u s { j with stage := .writing g } where
  follows := by
    refine ⟨h.follows.candidate,?_⟩
    rw [Job.intent_of_stage fun _ => ⟨fun _ => by simp,by simp⟩,← hi]
    exact h.follows.intent
  known := h.known
  since reading d hd := absurd hd (by simp)
  dated reading d hd := absurd hd (by simp)
  beginning hb := absurd hb (by simp)
  armed _ := h.armed harmed
  writing _ _ := hne
  visiting := h.visiting
  refreshing hr := absurd hr (by simp)
  closing c hc := absurd hc (by simp)
  approving reason r a hcl := absurd hcl (by simp)
  cancelling hcl := absurd hcl (by simp)
  committed hid happ := absurd (h.committed hid happ) hpast

lemma JobInv.prepared (h : JobInv env u s j) (hstage : j.stage = .loading .update l)
    (now : ℚ) : JobInv env u s (j.prepared env now memory) ∧
    (j.prepared env now memory).intent = j.intent := by
  have hi : j.intent = some (j.purpose.applies,j.id) :=
    Job.intent_of_stage fun _ => ⟨fun l' => by simp [hstage],by simp [hstage]⟩
  have hpast : ¬j.past := by simp [Job.past,hstage]
  have hfailed : ∀ reason, JobInv env u s { j with stage := .closing (j.failed reason) } ∧
      Job.intent { j with stage := .closing (j.failed reason) } = j.intent := by
    intro reason
    rw [hi]
    exact ⟨h.to_failed reason hi hpast,Job.intent_of_stage fun _ => ⟨fun _ => by simp,by simp⟩⟩
  unfold Job.prepared
  split
  · exact hfailed _
  split
  · exact hfailed _
  · rename_i g hg
    refine ⟨h.to_writing g hi (by simp [Job.armed,hstage]) (prepareContent_guard hg) hpast,?_⟩
    rw [hi]
    exact Job.intent_of_stage fun _ => ⟨fun _ => by simp,by simp⟩

lemma JobInv.verified (h : JobInv env u s j) (hr : s.Rows env)
    (hstage : j.stage = .loading .verify l) (hsees : j.Sees env u s memory) :
    JobInv env u s (j.verified env memory) ∧ (j.verified env memory).intent = j.intent := by
  have hi : j.intent = some (j.purpose.applies,j.id) :=
    Job.intent_of_stage fun _ => ⟨fun l' => by simp [hstage],by simp [hstage]⟩
  have hclosing : ∀ cl, Job.intent { j with stage := .closing cl } = j.intent := by
    intro cl
    rw [hi]
    exact Job.intent_of_stage fun _ => ⟨fun _ => by simp,by simp⟩
  unfold Job.verified
  by_cases happlies : j.purpose.applies = true
  · rw [if_pos happlies]
    by_cases hok : applyVerified env j.candidate j.target memory = true
    · rw [if_pos hok]
      refine ⟨h.to_closing hi happlies.symm (fun reason r a hc => ?_)
        (fun hc => absurd hc (by simp)) fun _ _ => trivial,hclosing _⟩
      obtain ⟨-,rfl,-⟩ : _ ∧ loadedRevision env memory = r ∧ _ := by simpa using hc
      simp only [applyVerified,Bool.and_eq_true,decide_eq_true_eq] at hok
      obtain ⟨⟨⟨hfound,-⟩,htext⟩,-⟩ := hok
      obtain ⟨m,rfl⟩ := loadedRevision_ne hfound
      exact hsees.approves hr rfl htext
    · rw [if_neg hok]
      exact ⟨h.to_closing hi happlies.symm (fun _ _ _ hc => absurd hc (by simp))
        (fun hc => absurd hc (by simp)) fun _ _ => trivial,hclosing _⟩
  · rw [if_neg happlies]
    have hno : j.purpose.applies = false := by simpa using happlies
    by_cases hok : rollbackVerified env j.candidate j.expected memory = true
    · rw [if_pos hok]
      refine ⟨h.to_refreshing hi hno,?_⟩
      rw [hi]
      exact Job.intent_of_stage fun _ => ⟨fun _ => by simp,by simp⟩
    · rw [if_neg hok]
      exact ⟨h.to_closing hi hno.symm (fun _ _ _ hc => absurd hc (by simp))
        (fun hc => absurd hc (by simp)) fun _ happ => absurd happ happlies,hclosing _⟩

lemma JobInv.loads_past (h : JobInv env u s j) (hstage : j.stage = .loading .visit (.stamps d))
    (hid : j.id ∈ s.committed) (happlies : j.purpose.applies = true)
    (hpassed : s.Passed j.candidate.memoryId j.candidate.sourceRevision) :
    (stampedBy d (s.world.memories.get? j.candidate.memoryId)).revision env ≠
      j.candidate.sourceRevision := by
  cases hrow : s.world.memories.get? j.candidate.memoryId with
  | none =>
    have hpast := h.committed hid happlies
    simp only [Job.past,hstage] at hpast
    obtain ⟨t,ht,hne⟩ := hpast
    rw [show stampedBy d none = d from rfl,revision_of_stamp ht]
    exact hne
  | some m =>
    obtain ⟨t,ht,hne⟩ := hpassed m hrow
    have hstamp : (stampedBy d (some m)).updatedAt = some t.text := ht
    rw [revision_of_stamp hstamp]
    exact hne

lemma JobInv.loaded (h : JobInv env u s j) (hr : s.Rows env)
    (hstage : j.stage = .loading reading l) (hsees : j.Sees env u s memory)
    (hcommitted : reading = .visit → j.id ∈ s.committed → j.purpose.applies = true →
      ∀ m ∈ memory, m.revision env ≠ j.candidate.sourceRevision)
    (hgo : j.loaded env x memory reading = .goes j') :
    JobInv env u s j' ∧ j'.intent = j.intent := by
  cases reading with
  | visit =>
    unfold Job.loaded at hgo
    cases hv : j.visited env memory with
    | none => simp [hv] at hgo
    | some j₁ =>
      obtain rfl : j₁ = j' := by simpa [hv] using hgo
      exact h.visited hr hstage hsees (hcommitted rfl) hv
  | update =>
    obtain rfl := Outcome.goes.inj hgo
    exact h.prepared hstage x.now
  | verify =>
    obtain rfl := Outcome.goes.inj hgo
    exact h.verified hr hstage hsees

lemma Inv.goes (h : Inv env u s) (hj : j ∈ s.jobs)
    (hu : u → ∀ d ∈ j.document?, ∀ m ∈ s.world.memories.get? j.candidate.memoryId, m = d)
    (hgo : j.advance env s.world x = .goes j') : JobInv env u s j' ∧ j'.intent = j.intent := by
  have hinv := h.jobs j hj
  unfold Job.advance at hgo
  cases hstage : j.stage with
  | loading reading l =>
    cases l with
    | document =>
      simp only [hstage] at hgo
      cases hrow : (if x.fails then none else s.world.memories.get? j.candidate.memoryId) with
      | none =>
        rw [hrow] at hgo
        exact hinv.loaded h.rows hstage (fun m hm => absurd hm (by simp))
          (fun _ _ _ m hm => absurd hm (by simp)) hgo
      | some m =>
        rw [hrow] at hgo
        obtain rfl := Outcome.goes.inj hgo
        have hm : s.world.memories.get? j.candidate.memoryId = some m := by
          cases hfails : x.fails <;> simp [hfails] at hrow
          exact hrow
        refine ⟨hinv.to_stamps h.rows (h.dated hj) hstage hm (h.passed hj),?_⟩
        cases hp : j.purpose <;> cases reading <;> simp [Job.intent,hp,hstage]
    | stamps d =>
      simp only [hstage] at hgo
      have hdocument : j.document? = some d := by simp [Job.document?,hstage]
      refine hinv.loaded h.rows hstage (hinv.sees hstage x.fails fun hu' => hu hu' d hdocument)
        (fun hreading hid happlies m hm => ?_) hgo
      subst hreading
      cases hfails : x.fails with
      | true => simp [hfails] at hm
      | false =>
        obtain rfl : stampedBy d (s.world.memories.get? j.candidate.memoryId) = m := by
          simpa [hfails] using hm
        exact hinv.loads_past hstage hid happlies (h.passed hj hid)
  | beginning =>
    simp only [hstage] at hgo
    cases hb : s.world.store.beginRollback j.id j.expected <;> simp [hb] at hgo
  | writing g =>
    simp only [hstage] at hgo
    split at hgo
    · obtain rfl := Outcome.goes.inj hgo
      have hi : j.intent = some (j.purpose.applies,j.id) :=
        Job.intent_of_stage fun _ => ⟨fun l' => by simp [hstage],by simp [hstage]⟩
      refine ⟨hinv.to_failed _ hi (by simp [Job.past,hstage]),?_⟩
      rw [hi]
      exact Job.intent_of_stage fun _ => ⟨fun _ => by simp,by simp⟩
    · cases hgo
  | refreshing =>
    simp only [hstage] at hgo
    split at hgo
    · obtain rfl := Outcome.goes.inj hgo
      have hi : j.intent = some (j.purpose.applies,j.id) :=
        Job.intent_of_stage fun _ => ⟨fun l' => by simp [hstage],by simp [hstage]⟩
      have hno := hinv.refreshing hstage
      refine ⟨hinv.to_closing hi hno.symm (fun _ _ _ hc => absurd hc (by simp))
        (fun hc => absurd hc (by simp)) fun _ happ => absurd (hno.symm.trans happ) (by simp),?_⟩
      rw [hi]
      exact Job.intent_of_stage fun _ => ⟨fun _ => by simp,by simp⟩
    · cases hgo
  | closing c =>
    simp only [hstage] at hgo
    cases hc : c.run s.world.store j.id <;> simp [hc] at hgo

lemma Job.loaded_cases (env : Env) (x : Input) (j : Job) (memory : Option MemoryRow)
    (reading : Reading) : (reading = .visit ∧ j.visited env memory = none ∧
      j.loaded env x memory reading = .ended) ∨ ∃ j', j.loaded env x memory reading = .goes j' := by
  cases reading with
  | visit =>
    unfold Job.loaded
    cases hv : j.visited env memory with
    | none => exact .inl ⟨rfl,rfl,rfl⟩
    | some j' => exact .inr ⟨j',rfl⟩
  | update | verify => exact .inr ⟨_,rfl⟩

variable {o : Option Job}

theorem Job.advance_changes (env : Env) (w : World) (x : Input) (j : Job) :
    match j.advance env w x with
    | .wrote m o => j.writes = true ∧ j.armed ∧
        (∃ m₀, w.memories.get? j.candidate.memoryId = some m₀ ∧ m₀.unchangedSince j.expected = true) ∧
        m.text = j.content ∧ m.updatedAt = some x.updatedAt.text ∧
        o = if x.raises then none else some { j with stage := .loading .verify .document }
    | .stored st o => (j.stage = .beginning ∧ w.store.beginRollback j.id j.expected = .ok st ∧
        o = some { j with stage := .loading .update .document }) ∨
        ∃ cl, j.stage = .closing cl ∧ cl.run w.store j.id = .ok st ∧ o = none
    | _ => True := by
  unfold Job.advance
  cases hstage : j.stage with
  | loading reading l =>
    cases l with
    | document =>
      dsimp only
      cases (if x.fails = true then none else w.memories.get? j.candidate.memoryId) with
      | none => rcases j.loaded_cases env x none reading with ⟨-,-,h⟩ | ⟨j',h⟩ <;> simp only [h]
      | some m => trivial
    | stamps d =>
      dsimp only
      generalize (if x.fails = true then none else some (stampedBy d _)) = memory
      rcases j.loaded_cases env x memory reading with ⟨-,-,h⟩ | ⟨j',h⟩ <;> simp only [h]
  | beginning =>
    dsimp only
    cases hb : w.store.beginRollback j.id j.expected with
    | error e => trivial
    | ok st => exact .inl ⟨rfl,rfl,rfl⟩
  | writing g =>
    dsimp only
    cases hbind : (w.memories.get? j.candidate.memoryId).bind fun m => if x.available = true then
        updateContentIfRevision m j.content g.metadata j.expected g.dropped x.updatedAt.text
      else none with
    | none => trivial
    | some m =>
      obtain ⟨m₀,hm₀,hwrite⟩ := Option.bind_eq_some_iff.mp hbind
      cases havailable : x.available with
      | false => simp [havailable] at hwrite
      | true =>
        unfold updateContentIfRevision at hwrite
        split_ifs at hwrite with hblank hguard
        cases hwrite
        exact ⟨by simp [Job.writes,hstage],by simp [Job.armed,hstage],⟨m₀,hm₀,hguard⟩,rfl,rfl,rfl⟩
  | refreshing =>
    dsimp only
    cases x.refreshes <;> trivial
  | closing c =>
    dsimp only
    cases hc : c.run w.store j.id with
    | error e => trivial
    | ok st => exact .inr ⟨c,rfl,hc,rfl⟩

lemma Job.advance_wrote {w : World} (h : j.advance env w x = .wrote m o) :
    j.writes = true ∧ j.armed ∧ (∃ m₀, w.memories.get? j.candidate.memoryId = some m₀ ∧
      m₀.unchangedSince j.expected = true) ∧ m.text = j.content ∧ m.updatedAt = some x.updatedAt.text ∧
      o = if x.raises then none else some { j with stage := .loading .verify .document } := by
  simpa only [h] using j.advance_changes env w x

lemma Inv.overwrites (h : Inv env u s) (hj : j ∈ s.jobs)
    (hw : j.advance env s.world x = .wrote m o) (hp : j.purpose ≠ .apply) :
    ∃ m₀, s.world.memories.get? j.candidate.memoryId = some m₀ ∧ j.Recorded env m₀ := by
  obtain ⟨hwrites,harmed,⟨m₀,hm₀,hguard⟩,-⟩ := Job.advance_wrote hw
  obtain ⟨hexpected,hrow⟩ := (h.jobs j hj).armed harmed
  obtain ⟨d,hd,hrec⟩ := hrow hp
  have hne : j.expected ≠ "" := by
    unfold Job.writes at hwrites
    split at hwrites
    · rename_i g hstage
      exact (h.jobs j hj).writing g hstage
    · cases hwrites
  have hrevision : m₀.revision env = d.revision env := by
    rw [revision_of_unchangedSince hguard hne,hexpected,hrec.1]
  obtain rfl := h.unique _ m₀ d (h.current _ _ hm₀) hd hrevision
  exact ⟨m₀,hm₀,hrec⟩

lemma JobInv.to_verify (h : JobInv env u s j) (hi : j.intent = some (j.purpose.applies,j.id)) :
    JobInv env u s { j with stage := .loading .verify .document } := by
  refine .of_loading rfl ⟨h.follows.candidate,?_⟩ h.known
    (fun ha => absurd ha (by simp [Job.armed]))
    h.visiting fun _ _ => trivial
  rw [Job.intent_of_stage fun _ => ⟨fun _ => by simp,by simp⟩,← hi]
  exact h.follows.intent

lemma Inv.commit (h : Inv env u s) {c : Candidate} (hc : s.world.store.getCandidate id = some c)
    (hstatus : c.status = .pending) (hop : (s.world.store.applyOps.get? id).isSome)
    (hpassed : s.Passed c.memoryId c.sourceRevision)
    (hothers : ∀ j ∈ s.jobs, j.id = id → j.purpose.applies = false) :
    Inv env u { s with committed := s.committed++[id] } := by
  have he : s.Extends env { s with committed := s.committed++[id] } := .of_rows rfl rfl
  refine ⟨h.current,h.unique,h.sound,fun id' c' hc' => (h.candidates id' c' hc').mono he,
    fun p hp => (h.proposals p hp).mono he,fun j hj => ?_,h.distinct,fun id' hid' => ?_⟩
  · have hinv := h.jobs j hj
    refine ⟨hinv.follows,fun hne => (hinv.known hne).mono he,
      fun reading d hd => (hinv.since reading d hd).mono he hinv.known,hinv.dated,hinv.beginning,
      hinv.armed,hinv.writing,hinv.visiting,hinv.refreshing,hinv.closing,hinv.approving,
      hinv.cancelling,fun hid happlies => ?_⟩
    rcases List.mem_append.mp hid with hold | hnew
    · exact hinv.committed hold happlies
    · rw [hothers j hj (List.mem_singleton.mp hnew)] at happlies
      cases happlies
  · rcases List.mem_append.mp hid' with hold | hnew
    · exact h.committed id' hold
    · obtain rfl := List.mem_singleton.mp hnew
      exact ⟨c,hc,by simp [hstatus],fun _ => hop,hpassed⟩

lemma Job.intent_of_applies (h : j.purpose.applies = true) : j.intent = some (true,j.id) := by
  have hi := Job.intent_of_purpose (j := j) fun hp => by simp [hp,Purpose.applies] at h
  rwa [h] at hi

lemma Inv.wrote (h : Inv env u s) (hj : s.jobs[i]? = some j) (hfresh : Fresh env s (.advance i x))
    (hw : j.advance env s.world x = .wrote m o) : Inv env u (s.proceed i j (.wrote m o)) := by
  obtain ⟨hwrites,harmed,⟨m₀,hm₀,hguard⟩,-,hstamp,ho⟩ := Job.advance_wrote hw
  have hmem := List.mem_of_getElem? hj
  have hinv := h.jobs j hmem
  have hi : j.intent = some (j.purpose.applies,j.id) := by
    refine Job.intent_of_stage fun _ => ⟨fun l hl => ?_,fun hb => ?_⟩
    · simp [Job.writes,hl] at hwrites
    · simp [Job.writes,hb] at hwrites
  have hfresh' : ∀ e ∈ (s.without i).held, e.1 = j.candidate.memoryId →
      e.2.revision env ≠ x.updatedAt.text := hfresh j hj hwrites
  obtain ⟨he,hrows⟩ := (h.without i).rows.setMemory hstamp hfresh'
  have hset := (h.without i).of_rows he hrows rfl rfl rfl rfl
  have hframe : JobInv env u ((s.without i).setMemory j.candidate.memoryId m) j :=
    (hinv.frame (System.Extends.of_rows rfl rfl : s.Extends env (s.without i)) hinv.follows
      fun hid => hid).frame he hinv.follows fun hid => hid
  have hothers := h.others hj hi
  have hback : ∀ s' : System, Inv env u s' → s'.jobs = s.jobs.eraseIdx i →
      JobInv env u s' { j with stage := .loading .verify .document } →
      Inv env u { s' with jobs := System.put s.jobs i o } := by
    intro s' hs' hjobs hj'
    refine hs'.put_back hjobs hj o (fun j₁ hj₁ => ?_) (fun j₁ hj₁ e he' j₂ hj₂ => ?_)
    · rw [ho] at hj₁
      split at hj₁
      · cases hj₁
      · obtain rfl := Option.some.inj hj₁
        exact hj'
    · rw [ho] at hj₁
      split at hj₁
      · cases hj₁
      · obtain rfl := Option.some.inj hj₁
        rw [Job.intent_of_stage fun _ => ⟨fun _ => by simp,by simp⟩] at he'
        cases he'
        rw [hjobs] at hj₂
        exact hothers j₂ hj₂
  cases happlies : j.purpose.applies with
  | false =>
    have hdone := hback _ hset rfl (hframe.to_verify hi)
    rw [System.proceed,happlies]
    exact hdone
  | true =>
    have hintent := Job.intent_of_applies happlies
    obtain ⟨c,hc,hsame,-⟩ := hinv.follows.candidate
    obtain ⟨a,ha,-⟩ : s.world.store.Opened (true,j.id) := hinv.follows.intent _ hintent
    have hstatus : c.status = .pending := by
      obtain ⟨c',hc',hstatus⟩ := (hinv.follows.intent _ hintent).status (h.sound j.id)
      obtain rfl := Option.some.inj (hc.symm.trans hc')
      exact hstatus
    have hpassed : ((s.without i).setMemory j.candidate.memoryId m).Passed c.memoryId
        c.sourceRevision := by
      rw [hsame.memoryId]
      intro m' hm'
      have hget : ((s.without i).setMemory j.candidate.memoryId m).world.memories.get?
          j.candidate.memoryId = some m := Dict.get?_set_self
      obtain rfl := Option.some.inj (hget.symm.trans hm')
      refine ⟨x.updatedAt,hstamp,fun heq => ?_⟩
      obtain ⟨d,hd,hrev⟩ := (h.candidates _ c hc).staged
      rw [hsame.memoryId] at hd
      exact hfresh' _ hd rfl (hrev.trans heq.symm)
    have hnew : ∀ j' ∈ (s.without i).jobs, j'.id = j.id → j'.purpose.applies = false := by
      intro j' hj' hid
      by_contra hno
      have hyes : j'.purpose.applies = true := by simpa using hno
      refine hothers j' hj' ?_
      rw [Job.intent_of_applies hyes,hid,happlies]
    have hcommitted := hset.commit hc hstatus (by
      show (s.world.store.applyOps.get? j.id).isSome = true
      rw [ha]
      rfl) hpassed hnew
    have hframe' : JobInv env u { (s.without i).setMemory j.candidate.memoryId m with
        committed := (s.without i).committed++[j.id] }
        { j with stage := .loading .verify .document } := by
      have hverify := hframe.to_verify hi
      exact ⟨hverify.follows,hverify.known,hverify.since,hverify.dated,hverify.beginning,
        hverify.armed,hverify.writing,hverify.visiting,hverify.refreshing,hverify.closing,
        hverify.approving,hverify.cancelling,fun _ _ => trivial⟩
    have hdone := hback _ hcommitted rfl hframe'
    rw [System.proceed,happlies]
    exact hdone

lemma Job.advance_stored {w : World} {st : Store} (h : j.advance env w x = .stored st o) :
    (j.stage = .beginning ∧ w.store.beginRollback j.id j.expected = .ok st ∧
      o = some { j with stage := .loading .update .document }) ∨
    ∃ cl, j.stage = .closing cl ∧ cl.run w.store j.id = .ok st ∧ o = none := by
  simpa only [h] using j.advance_changes env w x

variable {st st' : Store} {cl : Closing} {c : Candidate}

lemma map_fst_ok {α β : Type*} {r : Except StoreError (α × β)} {a : α}
    (h : r.map Prod.fst = .ok a) : ∃ b, r = .ok (a,b) := by
  cases r with
  | error e => exact absurd h (by simp [Except.map])
  | ok p =>
    obtain rfl : p.1 = a := by simpa [Except.map] using h
    exact ⟨p.2,rfl⟩

lemma Closing.run_ok (h : cl.run st id = .ok st') (hopen : st.Opened (cl.applies,id))
    (hc : st.getCandidate id = some c) : MovesAt id st st' ∧ ∃ c', st'.getCandidate id = some c' ∧
      (c'.appliedRevision = c.appliedRevision ∨ c'.appliedRevision = none ∨
        ∃ reason r a, cl = .approve reason r a ∧ c'.appliedRevision = some r) ∧
      (c'.status = .rejected → c.status = .rejected ∨ ∃ reason, cl = .reject reason) := by
  have hcandidate : ∀ st'' : Store, st''.candidates = st.candidates →
      ∃ c', st''.getCandidate id = some c' ∧ c' = c := by
    intro st'' heq
    refine ⟨c,?_,rfl⟩
    rw [Store.getCandidate,heq]
    exact hc
  cases cl with
  | reject reason =>
    obtain ⟨c₂,h⟩ := map_fst_ok h
    obtain ⟨hm,-,c₁,hc₁,hview⟩ := completeApply_ok h
    exact ⟨hm,_,congrArg View.candidate hview,.inr (.inl rfl),fun _ => .inr ⟨reason,rfl⟩⟩
  | approve reason r a =>
    obtain ⟨c₂,h⟩ := map_fst_ok h
    obtain ⟨hm,-,c₁,hc₁,hview⟩ := completeApply_ok h
    exact ⟨hm,_,congrArg View.candidate hview,.inr (.inr ⟨reason,r,a,rfl,rfl⟩),
      fun hstatus => absurd hstatus (by simp [Candidate.closed])⟩
  | recoveryRequired =>
    obtain ⟨hm,c₁,hc₁,hc'⟩ := markApplyRecoveryRequired_ok h
    obtain rfl := Option.some.inj (hc.symm.trans hc₁)
    exact ⟨hm,_,hc',.inl rfl,fun hstatus => .inl hstatus⟩
  | blockApply reason =>
    obtain ⟨hm,-,c₁,hc₁,hc'⟩ := markApplyBlocked_ok h
    obtain rfl := Option.some.inj (hc.symm.trans hc₁)
    exact ⟨hm,_,hc',.inl rfl,fun hstatus => absurd hstatus (by simp)⟩
  | cancel =>
    cases h
    obtain ⟨r,hr,hpending⟩ := hopen
    obtain ⟨c',hc',rfl⟩ := hcandidate (st.cancelRollback id) rfl
    exact ⟨(cancelRollback_moves hr hpending).1,c',hc',.inl rfl,fun hstatus => .inl hstatus⟩
  | blockRollback reason =>
    obtain ⟨hm,-,heq⟩ := markRollbackBlocked_ok h
    obtain ⟨c',hc',rfl⟩ := hcandidate _ heq
    exact ⟨hm,c',hc',.inl rfl,fun hstatus => .inl hstatus⟩
  | complete =>
    obtain ⟨c₂,h⟩ := map_fst_ok h
    obtain ⟨hm,hstatus,hview⟩ := completeRollback_ok h
    have hc' : st'.getCandidate id = some c₂ := congrArg View.candidate hview
    refine ⟨hm,c₂,hc',?_,fun hrejected => absurd (hstatus.symm.trans hrejected) (by simp)⟩
    rcases hm.move.applied hc hc' with heq | ⟨reason,applied,hclosed,-⟩
    · exact .inl heq
    · cases applied <;> rw [hclosed] at hstatus <;> exact absurd hstatus (by simp [Candidate.closed])

lemma Inv.begun (h : Inv env u s) (hj : s.jobs[i]? = some j) (hstage : j.stage = .beginning)
    (hb : s.world.store.beginRollback j.id j.expected = .ok st) : MovesAt j.id s.world.store st ∧
      Inv env u (s.proceed i j (.stored st (some { j with stage := .loading .update .document }))) := by
  have hmem := List.mem_of_getElem? hj
  have hinv := h.jobs j hmem
  have hp := hinv.beginning hstage
  obtain ⟨hm,hop,⟨c,hc,hstatus⟩,hview⟩ := beginRollback_ok hb
  refine ⟨hm,?_⟩
  have hsame : st.getCandidate j.id = s.world.store.getCandidate j.id :=
    congrArg View.candidate hview
  have hopened : st.Opened (false,j.id) := ⟨_,congrArg View.rollback hview,rfl⟩
  -- an open application would keep the candidate pending
  have hidle : ∀ j' ∈ s.jobs, ∀ e ∈ j'.intent, e.2 ≠ j.id := by
    refine h.idle fun e he heq => ?_
    obtain ⟨c',hc',hkind⟩ := he.status (h.sound e.2)
    obtain ⟨kind,id⟩ := e
    obtain rfl : id = j.id := heq
    obtain rfl := Option.some.inj (hc.symm.trans hc')
    cases kind with
    | true => exact absurd (hstatus.symm.trans hkind) (by simp)
    | false =>
      obtain ⟨r,hr,-⟩ := he
      exact absurd (hop.symm.trans hr) (by simp)
  have hidle' : ∀ j' ∈ (s.without i).jobs, ∀ e ∈ j'.intent, e.2 ≠ j.id :=
    fun j' hj' => hidle j' (List.mem_of_mem_eraseIdx hj')
  have hmoved : Inv env u ((s.without i).setStore st) := by
    refine (h.without i).move hm (fun c' hc' => ?_) hidle' fun _ c' reason hclosed => ?_
    · exact (h.without i).candidates j.id c' (hsame ▸ hc')
    · rw [hsame] at hclosed
      obtain rfl := Option.some.inj (hc.symm.trans hclosed)
      exact absurd hstatus (by simp [Candidate.closed])
  have hfollows : j.Follows st := hinv.follows.other hm (hidle j hmem)
  have hjob : JobInv env u ((s.without i).setStore st) j :=
    hinv.frame (.of_rows rfl rfl) hfollows fun hid => hid
  have hi : Job.intent { j with stage := .loading .update .document } = some (false,j.id) := by
    simp [Job.intent,hp,Purpose.applies]
  refine hmoved.put_back rfl hj (some _) (fun j' hj' => ?_) fun j' hj' e he j'' hj'' heq => ?_
  · cases hj'
    have harmed := hjob.armed (by simp [Job.armed,hstage])
    refine .of_loading rfl ⟨hfollows.candidate,fun e he => ?_⟩ hjob.known (fun _ => harmed)
      hjob.visiting fun hid happlies => absurd happlies (by simp [hp,Purpose.applies])
    rw [hi] at he
    cases he
    exact hopened
  · cases hj'
    rw [hi] at he
    cases he
    exact hidle' j'' hj'' _ heq rfl

lemma Inv.closed (h : Inv env u s) (hj : s.jobs[i]? = some j) (hstage : j.stage = .closing cl)
    (hrun : cl.run s.world.store j.id = .ok st) :
    MovesAt j.id s.world.store st ∧ Inv env u (s.proceed i j (.stored st none)) := by
  have hmem := List.mem_of_getElem? hj
  have hinv := h.jobs j hmem
  have hi : j.intent = some (j.purpose.applies,j.id) :=
    Job.intent_of_stage fun _ => ⟨fun l => by simp [hstage],by simp [hstage]⟩
  have hkind : cl.applies = j.purpose.applies := hinv.closing cl hstage
  have hopened : s.world.store.Opened (j.purpose.applies,j.id) := hinv.follows.intent _ hi
  obtain ⟨c,hc,hsame,-⟩ := hinv.follows.candidate
  obtain ⟨hm,c',hc',happlied,hrejected⟩ := Closing.run_ok hrun (hkind ▸ hopened) hc
  refine ⟨hm,?_⟩
  have hothers := h.others hj hi
  have hmoved : Inv env u ((s.without i).setStore st) := by
    refine (h.without i).move hm (fun c₁ hc₁ => ?_) (fun j' hj' e he heq => ?_)
      fun hid c₁ reason hclosed => ?_
    · obtain rfl := Option.some.inj (hc'.symm.trans hc₁)
      rcases happlied with hkeep | hnone | ⟨reason,r,a,rfl,hr⟩
      · exact (h.without i).candidate_moved hm hc hc' (.inl hkeep)
      · exact (h.without i).candidate_moved hm hc hc' (.inr hnone)
      · obtain ⟨-,-,m,hmrow,hrev,htext⟩ := hinv.approving reason r a hstage
        obtain ⟨c₂,hc₂,hsame',-⟩ := hm.move.candidate hc
        obtain rfl := Option.some.inj (hc₂.symm.trans hc')
        have hold := h.candidates j.id c hc
        refine ⟨?_,?_,fun r' hr' => ?_⟩
        · rw [hsame'.memoryId,hsame'.sourceRevision]
          exact hold.staged
        · rw [hsame'.memoryId]
          exact hold.dated
        · obtain rfl := Option.some.inj (hr.symm.trans hr')
          refine ⟨m,?_,hrev,?_⟩
          · rw [hsame'.memoryId,hsame.memoryId]
            exact hmrow
          · rw [hsame'.proposedContent,hsame.proposedContent]
            exact htext
    · have he' : s.world.store.Opened e := (h.jobs j' (List.mem_of_mem_eraseIdx hj')).follows.intent e he
      obtain rfl := hopened.same_kind he' (h.sound _) heq
      exact hothers j' hj' he
    · obtain rfl := Option.some.inj (hc'.symm.trans hclosed)
      rcases hrejected rfl with hold | ⟨reason',rfl⟩
      · obtain ⟨c₂,hc₂,hnot,-⟩ := h.committed j.id hid
        obtain rfl := Option.some.inj (hc.symm.trans hc₂)
        exact hnot hold
      · have hpast := hinv.committed hid hkind.symm
        simp [Job.past,hstage] at hpast
  exact hmoved

lemma Inv.load (h : Inv env u s) (i : ℕ) (x : Input) : Inv env u (step env s (.load i x)) := by
  have he : s.Extends env (step env s (.load i x)) := .of_rows rfl rfl
  refine ⟨h.current,h.unique,h.sound,fun id c hc => (h.candidates id c hc).mono he,
    fun p hp => ?_,fun j hj => (h.jobs j hj).frame he (h.jobs j hj).follows fun hid => hid,
    h.distinct,h.committed⟩
  obtain ⟨k,hk⟩ := List.mem_iff_getElem?.mp hp
  have hk' : (s.proposals.modify i (System.Proposal.load s.world x))[k]? = some p := hk
  rw [List.getElem?_modify] at hk'
  obtain ⟨p',hp',heq⟩ := Option.map_eq_some_iff.mp hk'
  have hold := h.proposals p' (List.mem_of_getElem? hp')
  split at heq
  · obtain rfl := heq
    exact (hold.load h.rows x).mono he
  · obtain rfl := heq
    exact hold.mono he

lemma Inv.propose (h : Inv env u s) (memoryId : ℕ) :
    Inv env u (step env s (.propose memoryId)) := by
  have he : s.Extends env (step env s (.propose memoryId)) := .of_rows rfl rfl
  refine ⟨h.current,h.unique,h.sound,fun id c hc => (h.candidates id c hc).mono he,
    fun p hp => ?_,fun j hj => (h.jobs j hj).frame he (h.jobs j hj).follows fun hid => hid,
    h.distinct,h.committed⟩
  rcases List.mem_append.mp hp with hold | hnew
  · exact (h.proposals p hold).mono he
  · obtain rfl := List.mem_singleton.mp hnew
    exact trivial

lemma Inv.edit (h : Inv env u s) (memoryId : ℕ) (row : MemoryRow) (updatedAt : Stamp)
    (hfresh : Fresh env s (.edit memoryId row updatedAt)) :
    Inv env u (step env s (.edit memoryId row updatedAt)) := by
  have hstamp : MemoryRow.updatedAt { row with updatedAt := some updatedAt.text } =
    some updatedAt.text := rfl
  obtain ⟨he,hr⟩ := h.rows.setMemory hstamp hfresh
  exact h.of_rows he hr rfl rfl rfl rfl

lemma Inv.advance (h : Inv env u s) (x : Input) (hfresh : Fresh env s (.advance i x))
    (hu : u → Untorn s (.advance i x)) (hj : s.jobs[i]? = some j) :
    Inv env u (s.proceed i j (j.advance env s.world x)) := by
  have hmem := List.mem_of_getElem? hj
  cases ho : j.advance env s.world x with
  | goes j' =>
    obtain ⟨hj',hi⟩ := h.goes hmem (fun hu' => hu hu' j hj) ho
    refine (h.without i).put_back rfl hj (some j') (fun j₁ hj₁ => ?_) fun j₁ hj₁ e he j₂ hj₂ => ?_
    · obtain rfl := Option.some.inj hj₁
      exact hj'.frame (.of_rows rfl rfl) hj'.follows fun hid => hid
    · obtain rfl := Option.some.inj hj₁
      exact h.others hj (hi.symm.trans he) j₂ hj₂
  | wrote m o => exact h.wrote hj hfresh ho
  | stored st o =>
    rcases j.advance_stored ho with ⟨hstage,hb,rfl⟩ | ⟨cl,hstage,hrun,rfl⟩
    · exact (h.begun hj hstage hb).2
    · exact (h.closed hj hstage hrun).2
  | ended => exact h.without i

lemma step_inv (h : Inv env u s) (a : Step) (hfresh : Fresh env s a) (hu : u → Untorn s a) :
    Inv env u (step env s a) := by
  cases a with
  | edit memoryId row updatedAt => exact h.edit memoryId row updatedAt hfresh
  | remove memoryId => exact h.remove memoryId
  | propose memoryId => exact h.propose memoryId
  | load i x => exact h.load i x
  | stage i cfg context answer candidateId => exact h.stage i cfg context answer hfresh
  | apply id now =>
    rw [step]
    split
    · exact h.apply id now
    · exact h
  | rollback id =>
    rw [step]
    split
    · exact h.rollback id
    · exact h
  | reject id reason =>
    rw [step]
    split
    · exact h.reject id reason
    · exact h
  | recoverApply id =>
    rw [step]
    split
    · rename_i hidle
      exact h.recoverApply id hidle
    · exact h
  | recoverRollback id =>
    rw [step]
    split
    · rename_i hidle
      exact h.recoverRollback id hidle
    · exact h
  | advance i x =>
    rw [step]
    cases hj : s.jobs[i]? with
    | none => exact h
    | some j => exact h.advance x hfresh hu hj
  | die i => exact h.without i
  | crash => exact h.of_sublist (List.nil_sublist _) (List.nil_sublist _)

lemma Inv.initial (memories : Dict ℕ MemoryRow) : Inv env u (.initial memories) where
  current k m hm := Dict.get?_eq_some.mp hm
  unique k m m' hm hm' _ := by
    have hget := Dict.get?_eq_some.mpr hm
    have hget' := Dict.get?_eq_some.mpr hm'
    exact Option.some.inj (hget.symm.trans hget')
  sound id := ⟨fun a ha => absurd ha (by simp [Store.view,System.initial]),
    fun r hr => absurd hr (by simp [Store.view,System.initial]),
    fun c hc => absurd hc (by simp [Store.view,System.initial]),
    fun c hc => absurd hc (by simp [Store.view,System.initial])⟩
  candidates id c hc := absurd hc (by simp [Store.getCandidate,System.initial])
  proposals p hp := absurd hp (by simp [System.initial])
  jobs j hj := absurd hj (by simp [System.initial])
  distinct := List.nodup_nil
  committed id hid := absurd hid (by simp [System.initial])

lemma run_inv {memories : Dict ℕ MemoryRow} {steps : List Step}
    (hgood : RunLaws.Along (step env) (fun s a => Fresh env s a ∧ (u → Untorn s a)) (.initial memories) steps) :
    Inv env u (run env (.initial memories) steps) :=
  RunLaws.along_invariant (P := Inv env u) (fun _ a ha h => step_inv h a ha.1 ha.2)
  (.initial memories) hgood

end Memora.Reconsolidation
