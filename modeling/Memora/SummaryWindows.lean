import Memora.SummaryPlanning

/-! A window is a job with its ledger and with what was counted for it. Most statements
touch the window of one job only; the others see it unchanged. -/
namespace Memora.Summary
open RowTable

@[ext] structure Window where
  job : Job
  slots : List Candidate
  credited : Counts

namespace Store

def window? (s : Store) (id : String) : Option Window :=
  (s.job? id).map fun j => ⟨j,s.slots id,s.credited id⟩

variable {s : Store} {id : String} {w : Window}

lemma window?_eq_some : s.window? id = some w ↔
    s.job? id = some w.job ∧ w.slots = s.slots id ∧ w.credited = s.credited id := by
  unfold window?
  rw [Option.map_eq_some_iff]
  constructor
  · rintro ⟨j,hj,rfl⟩
    exact ⟨hj,rfl,rfl⟩
  · rintro ⟨hj,h1,h2⟩
    exact ⟨w.job,hj,Window.ext rfl h1.symm h2.symm⟩

lemma job?_mem {j : Job} (h : s.job? id = some j) : j ∈ s.jobs := List.mem_of_find?_eq_some h

lemma job?_jobId {j : Job} (h : s.job? id = some j) : j.jobId = id := by
  simpa using List.find?_some h

lemma job?_of_mem (hk : Keyed s) {j : Job} (hj : j ∈ s.jobs) : s.job? j.jobId = some j :=
  @find?_key _ _ _ (fun j : Job => j.jobId) _ _ hk.jobs hj

lemma window?_mem (h : s.window? id = some w) : w.job ∈ s.jobs :=
  job?_mem (window?_eq_some.mp h).1

lemma window?_jobId (h : s.window? id = some w) : w.job.jobId = id :=
  job?_jobId (window?_eq_some.mp h).1

lemma window?_slots (h : s.window? id = some w) : s.slots id = w.slots :=
  (window?_eq_some.mp h).2.1.symm

lemma window?_credited (h : s.window? id = some w) : s.credited id = w.credited :=
  (window?_eq_some.mp h).2.2.symm

lemma slots_jobId {c : Candidate} (hc : c ∈ s.slots id) : c.jobId = id := by
  simpa using (List.mem_filter.mp hc).2

lemma eq_job_of_mem (hk : Keyed s) (hw : s.window? id = some w) {j : Job} (hj : j ∈ s.jobs)
    (hid : j.jobId = id) : j = w.job :=
  eq_of_key_eq hk.jobs hj (window?_mem hw) (hid.trans (window?_jobId hw).symm)

lemma countP_job (hk : Keyed s) (hw : s.window? id = some w) {p : Job → Bool}
    (hp : ∀ j, p j = true → j.jobId = id) : s.jobs.countP p = 1 ↔ p w.job = true := by
  constructor
  · intro h
    obtain ⟨j,hj,hpj⟩ := exists_of_countP_eq_one h
    rwa [eq_job_of_mem hk hw hj (hp j hpj)] at hpj
  · intro h
    exact countP_eq_one hk.jobs (fun j _ hj => (hp j hj).trans (window?_jobId hw).symm) (window?_mem hw) h

lemma window?_updateJobs (s : Store) {p : Job → Bool} {f : Job → Job}
    (hf : ∀ j, (f j).jobId = j.jobId) (id : String) : (s.updateJobs p f).window? id =
      (s.window? id).map fun w => { w with job := if p w.job then f w.job else w.job } := by
  have h : (s.updateJobs p f).job? id = (s.job? id).map fun j => if p j then f j else j :=
    find?_modify id p f s.jobs hf
  unfold window?
  rw [h]
  cases s.job? id <;> rfl

variable {f : Candidate → Candidate} {p : Candidate → Bool}

lemma slots_updateCandidates (s : Store) (hf : ∀ c, (f c).jobId = c.jobId) (id : String) :
    (s.updateCandidates p f).slots id = modify p f (s.slots id) :=
  filter_modify (fun c : Candidate => c.jobId) id p f s.candidates hf

lemma window?_updateCandidates (s : Store) (hf : ∀ c, (f c).jobId = c.jobId) (id : String) :
    (s.updateCandidates p f).window? id =
      (s.window? id).map fun w => { w with slots := modify p f w.slots } := by
  have hj : (s.updateCandidates p f).job? id = s.job? id := rfl
  have hc : (s.updateCandidates p f).credited id = s.credited id := rfl
  unfold window?
  rw [hj,hc,slots_updateCandidates s hf]
  cases s.job? id <;> rfl

lemma credited_addCounters (s : Store) (k : String) (n : Counts) (id : String) :
    (s.addCounters k n).credited id = if k = id then s.credited id+n else s.credited id := by
  funext d
  by_cases h : k = id <;> simp [credited,addCounters,h]

lemma window?_addCounters (s : Store) (k : String) (n : Counts) (id : String) :
    (s.addCounters k n).window? id = (s.window? id).map fun w =>
      { w with credited := if k = id then w.credited+n else w.credited } := by
  have hj : (s.addCounters k n).job? id = s.job? id := rfl
  have hs : (s.addCounters k n).slots id = s.slots id := rfl
  unfold window?
  rw [hj,hs,credited_addCounters]
  cases s.job? id <;> rfl

@[simp] lemma window?_advanceCursor (s : Store) (session : String) (epoch : ℕ) (now : Time)
    (id : String) : (s.advanceCursor session epoch now).window? id = s.window? id := rfl

lemma Advances.window? {s t : Store} (h : Advances s t) (id : String) :
    t.window? id = s.window? id := by
  induction h with
  | refl => rfl
  | tail _ h ih =>
    cases h
    exact ih

lemma window?_updateJobs_of_ne (s : Store) {p : Job → Bool} {f : Job → Job}
    (hf : ∀ j, (f j).jobId = j.jobId) (hp : ∀ j, j.jobId = id → p j = false) :
    (s.updateJobs p f).window? id = s.window? id := by
  rw [window?_updateJobs s hf]
  cases h : s.window? id with
  | none => rfl
  | some w => simp [hp w.job (window?_jobId h)]

lemma window?_updateCandidates_of_ne (s : Store) (hf : ∀ c, (f c).jobId = c.jobId)
    (hp : ∀ c, c.jobId = id → p c = false) : (s.updateCandidates p f).window? id = s.window? id := by
  rw [window?_updateCandidates s hf]
  cases h : s.window? id with
  | none => rfl
  | some w =>
    have hm : modify p f w.slots = w.slots :=
      modify_of_none fun c hc => hp c (slots_jobId (window?_slots h ▸ hc))
    simp [hm]

lemma window?_addCounters_of_ne (s : Store) {k : String} (n : Counts) (hne : k ≠ id) :
    (s.addCounters k n).window? id = s.window? id := by
  rw [window?_addCounters]
  cases s.window? id <;> simp [hne]

lemma insertCandidate_window? {t : Store} {c : Candidate} (h : s.insertCandidate c = some t)
    (id : String) : t.window? id = (s.window? id).map fun w =>
      { w with slots := w.slots++if c.jobId = id then [c] else [] } := by
  obtain ⟨rfl,-,-⟩ := insertCandidate_eq h
  have hs : slots { s with candidates := s.candidates++[c] } id =
      s.slots id++if c.jobId = id then [c] else [] := by
    by_cases hc : c.jobId = id <;> simp [slots,hc]
  have hj : job? { s with candidates := s.candidates++[c] } id = s.job? id := rfl
  have hl : credited { s with candidates := s.candidates++[c] } id = s.credited id := rfl
  unfold window?
  rw [hj,hl,hs]
  cases s.job? id <;> rfl

end Store

end Memora.Summary
