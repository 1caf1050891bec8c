import Memora.ListLaws

/-! Each batch reads the rows that exist, deletes their vectors, deletes the rows, and takes as many
of the identifiers it read for deleted as rows went. Other callers delete rows in between. -/
namespace Memora.BatchDelete

structure BatchEvents where
  /-- Rows that others deleted before the batch reads. -/
  removedBefore : List ℤ := []
  /-- Rows that a vector deletion or another caller removed between the read and the `DELETE`. -/
  removedMeanwhile : List ℤ := []
  derivedFails : Bool := false
  /-- Memories whose evolution data cannot be invalidated, which is only logged. -/
  invalidationFails : List ℤ := []
  /-- A statement fails, or the call is cancelled. -/
  raises : Bool := false

structure Report where
  deletedCount : ℕ := 0
  deletedIds : List ℤ := []
  notFoundIds : List ℤ := []
  failedIds : List ℤ := []
  /-- Offsets of the batches whose derived cleanup failed. -/
  errors : List ℕ := []
  /-- The memories whose evolution data was invalidated. -/
  invalidated : List ℤ := []

def batchSize : ℕ := 200

variable (events : ℕ → BatchEvents)

def readTable (offset : ℕ) (documents : List ℤ) : List ℤ :=
  documents.filter (· ∉ (events offset).removedBefore)

def batchExistingIds (offset : ℕ) (batch documents : List ℤ) : List ℤ :=
  (readTable events offset documents).filter (· ∈ batch)

def remaining (offset : ℕ) (documents : List ℤ) : List ℤ :=
  (readTable events offset documents).filter (· ∉ (events offset).removedMeanwhile)

/-- The loop from an offset on; none where it raises. -/
def deleteFrom (offset : ℕ) : List (List ℤ) → List ℤ → Option (Report × List ℤ)
  | [], documents => some ({},documents)
  | batch::batches, documents =>
    if (events offset).raises then none
    else
      let batchDeleted := ((remaining events offset documents).filter (· ∈ batch)).length
      let existing := batchExistingIds events offset batch documents
      let deletedIds := existing.take batchDeleted
      (deleteFrom (offset+batchSize) batches
        ((remaining events offset documents).filter (· ∉ batch))).map fun (rest,documents) =>
        ({ deletedCount := batchDeleted+rest.deletedCount
           deletedIds := deletedIds++rest.deletedIds
           notFoundIds := batch.filter (· ∉ existing)++rest.notFoundIds
           failedIds := rest.failedIds
           errors := if (events offset).derivedFails then offset::rest.errors else rest.errors
           invalidated := deletedIds.filter (· ∉ (events offset).invalidationFails)++rest.invalidated },
         documents)

/-- `memory_ids[i : i + 200]` for each `i`. -/
def batchesOf (memoryIds : List ℤ) : List (List ℤ) :=
  (List.range ((memoryIds.length+(batchSize - 1)) / batchSize)).map fun i =>
    (memoryIds.drop (batchSize * i)).take batchSize

def batchDeleteMemoriesDetailed (connected : Bool) (memoryIds documents : List ℤ) :
    Option (Report × List ℤ) :=
  if memoryIds = [] ∨ connected = false then some ({ notFoundIds := memoryIds },documents)
  else deleteFrom events 0 (batchesOf memoryIds) documents

def foundFrom (offset : ℕ) : List (List ℤ) → List ℤ → List ℤ
  | [], _ => []
  | batch::batches, documents =>
    batchExistingIds events offset batch documents ++
      foundFrom (offset+batchSize) batches ((remaining events offset documents).filter (· ∉ batch))

/-- No row that a batch finds is removed before its `DELETE` or occurs in a later batch, and its
evolution data can be invalidated. -/
def UndisturbedFrom (offset : ℕ) : List (List ℤ) → List ℤ → Prop
  | [], _ => True
  | batch::batches, documents =>
    (∀ id ∈ batchExistingIds events offset batch documents,
      id ∉ (events offset).removedMeanwhile ∧ id ∉ (events offset).invalidationFails ∧ id ∉ batches.flatten) ∧
      UndisturbedFrom (offset+batchSize) batches ((remaining events offset documents).filter (· ∉ batch))

variable {events}

/-- Every id in exactly one of the lists; those deleted are those found, they are gone and counted,
and nothing of their evolution data is left valid. -/
structure Report.Accounts (r : Report) (memoryIds found after : List ℤ) : Prop where
  once : ∀ id ∈ memoryIds, (id ∈ r.deletedIds ∧ id ∉ r.notFoundIds ∧ id ∉ r.failedIds) ∨
    (id ∉ r.deletedIds ∧ id ∈ r.notFoundIds ∧ id ∉ r.failedIds) ∨
    (id ∉ r.deletedIds ∧ id ∉ r.notFoundIds ∧ id ∈ r.failedIds)
  deleted : ∀ id, id ∈ r.deletedIds ↔ id ∈ found ∧ id ∉ after
  count : r.deletedCount = r.deletedIds.length
  invalidated : ∀ id ∈ r.deletedIds, id ∈ r.invalidated

variable {offset : ℕ} {batch documents after : List ℤ} {batches : List (List ℤ)} {r : Report}

lemma mem_existing {id : ℤ} : id ∈ batchExistingIds events offset batch documents ↔
    id ∈ readTable events offset documents ∧ id ∈ batch := by
  simp [batchExistingIds]

lemma rest_subset {id : ℤ} (h : id ∈ (remaining events offset documents).filter (· ∉ batch)) :
    id ∈ readTable events offset documents ∧ id ∉ batch := by
  simp only [remaining,List.mem_filter,decide_eq_true_eq] at h
  exact ⟨h.1.1,h.2⟩

lemma found_subset : ∀ id ∈ foundFrom events offset batches documents,
    id ∈ documents ∧ id ∈ batches.flatten := by
  induction batches generalizing offset documents with
  | nil => simp [foundFrom]
  | cons batch batches ih =>
    intro id hid
    rcases List.mem_append.mp hid with hid | hid
    · obtain ⟨hread,hbatch⟩ := mem_existing.mp hid
      exact ⟨List.mem_of_mem_filter hread,by simp [hbatch]⟩
    · obtain ⟨hrest,hlater⟩ := ih id hid
      exact ⟨List.mem_of_mem_filter (rest_subset hrest).1,by simp_all⟩

theorem count_eq_length_iff (events : ℕ → BatchEvents) (offset : ℕ) (batch documents : List ℤ) :
    ((remaining events offset documents).filter (· ∈ batch)).length ≤
        (batchExistingIds events offset batch documents).length ∧
      (((remaining events offset documents).filter (· ∈ batch)).length =
          (batchExistingIds events offset batch documents).length ↔
        ∀ id ∈ batchExistingIds events offset batch documents, id ∉ (events offset).removedMeanwhile) := by
  have hfilter : (remaining events offset documents).filter (· ∈ batch) =
      (batchExistingIds events offset batch documents).filter (· ∉ (events offset).removedMeanwhile) := by
    simp only [remaining,batchExistingIds,List.filter_filter,Bool.and_comm]
  rw [hfilter]
  refine ⟨List.length_filter_le _ _,?_⟩
  rw [List.length_filter_eq_length_iff]
  simp

structure Report.Follows (r : Report) (found memoryIds documents after : List ℤ) : Prop where
  after_subset : ∀ id ∈ after, id ∈ documents
  gone : ∀ id ∈ found, id ∉ after
  deleted_found : ∀ id ∈ r.deletedIds, id ∈ found
  notFound_listed : ∀ id ∈ r.notFoundIds, id ∈ memoryIds
  listed : ∀ id ∈ memoryIds, id ∈ found ∨ id ∈ r.notFoundIds
  invalidated_deleted : ∀ id ∈ r.invalidated, id ∈ r.deletedIds
  count : r.deletedCount = r.deletedIds.length
  failed : r.failedIds = []

lemma deleteFrom_cons (h : deleteFrom events offset (batch::batches) documents = some (r,after)) :
    ∃ rest, deleteFrom events (offset+batchSize) batches
        ((remaining events offset documents).filter (· ∉ batch)) = some (rest,after) ∧
      r.deletedIds = (batchExistingIds events offset batch documents).take
        ((remaining events offset documents).filter (· ∈ batch)).length++rest.deletedIds ∧
      r.notFoundIds = batch.filter (· ∉ batchExistingIds events offset batch documents) ++ rest.notFoundIds ∧
      r.invalidated = ((batchExistingIds events offset batch documents).take
        ((remaining events offset documents).filter (· ∈ batch)).length).filter
          (· ∉ (events offset).invalidationFails)++rest.invalidated ∧
      r.deletedCount = ((remaining events offset documents).filter (· ∈ batch)).length +
        rest.deletedCount ∧ r.failedIds = rest.failedIds := by
  rw [deleteFrom] at h
  split at h
  · cases h
  · obtain ⟨⟨rest,after'⟩,hrest,heq⟩ := Option.map_eq_some_iff.mp h
    cases heq
    exact ⟨rest,hrest,rfl,rfl,rfl,rfl,rfl⟩

lemma report_follows (h : deleteFrom events offset batches documents = some (r,after)) :
    r.Follows (foundFrom events offset batches documents) batches.flatten documents after := by
  induction batches generalizing offset documents r with
  | nil =>
    cases h
    constructor <;> simp [foundFrom]
  | cons batch batches ih =>
    obtain ⟨rest,hrest,hdeleted,hnotFound,hinvalidated,hcount,hfailed⟩ := deleteFrom_cons h
    have hf := ih hrest
    have hfound : ∀ id, id ∈ foundFrom events offset (batch::batches) documents ↔
        id ∈ batchExistingIds events offset batch documents ∨ id ∈ foundFrom events
          (offset+batchSize) batches ((remaining events offset documents).filter (· ∉ batch)) :=
      fun id => List.mem_append
    have hafter : ∀ id ∈ after, id ∈ documents ∧ id ∉ batch := fun id hid =>
      ⟨List.mem_of_mem_filter (rest_subset (hf.after_subset id hid)).1,
        (rest_subset (hf.after_subset id hid)).2⟩
    refine ⟨fun id hid => (hafter id hid).1,?_,?_,?_,?_,?_,?_,hfailed.trans hf.failed⟩
    · intro id hid hin
      rcases (hfound id).mp hid with hid | hid
      · exact (hafter id hin).2 (mem_existing.mp hid).2
      · exact hf.gone id hid hin
    · intro id hid
      rw [hdeleted] at hid
      rcases List.mem_append.mp hid with hid | hid
      · exact (hfound id).mpr (.inl (List.mem_of_mem_take hid))
      · exact (hfound id).mpr (.inr (hf.deleted_found id hid))
    · intro id hid
      rw [hnotFound] at hid
      rcases List.mem_append.mp hid with hid | hid
      · simp [List.mem_of_mem_filter hid]
      · exact List.mem_append_right batch (hf.notFound_listed id hid)
    · intro id hid
      rw [hnotFound,hfound,List.mem_append,List.mem_filter]
      rcases List.mem_append.mp hid with hid | hid
      · by_cases hin : id ∈ batchExistingIds events offset batch documents
        · exact .inl (.inl hin)
        · exact .inr (.inl ⟨hid,by simpa using hin⟩)
      · rcases hf.listed id hid with hin | hin
        · exact .inl (.inr hin)
        · exact .inr (.inr hin)
    · intro id hid
      rw [hinvalidated] at hid
      rw [hdeleted]
      rcases List.mem_append.mp hid with hid | hid
      · exact List.mem_append_left _ (List.mem_of_mem_filter hid)
      · exact List.mem_append_right _ (hf.invalidated_deleted id hid)
    · have hle := (count_eq_length_iff events offset batch documents).1
      rw [hcount,hdeleted,List.length_append,List.length_take,hf.count]
      omega

lemma accounts_iff (hdistinct : documents.Nodup)
    (h : deleteFrom events offset batches documents = some (r,after)) :
    r.Accounts batches.flatten (foundFrom events offset batches documents) after ↔
      UndisturbedFrom events offset batches documents := by
  induction batches generalizing offset documents r with
  | nil =>
    cases h
    exact iff_of_true (by constructor <;> simp [foundFrom]) trivial
  | cons batch batches ih =>
    have hf := report_follows h
    obtain ⟨rest,hrest,hdeleted,hnotFound,hinvalidated,-,-⟩ := deleteFrom_cons h
    have hf' := report_follows hrest
    have hnodup : (batchExistingIds events offset batch documents).Nodup := (hdistinct.filter _).filter _
    have hrestDistinct : ((remaining events offset documents).filter (· ∉ batch)).Nodup :=
      ((hdistinct.filter _).filter _).filter _
    have hbatch : ∀ id ∈ batchExistingIds events offset batch documents, id ∈ batch :=
      fun id hid => (mem_existing.mp hid).2
    have hlater : ∀ id ∈ foundFrom events (offset+batchSize) batches
        ((remaining events offset documents).filter (· ∉ batch)), id ∉ batch ∧ id ∈ batches.flatten :=
      fun id hid => ⟨(rest_subset (found_subset id hid).1).2,(found_subset id hid).2⟩
    obtain ⟨hle,hcount⟩ := count_eq_length_iff events offset batch documents
    rw [UndisturbedFrom,← ih hrestDistinct hrest]
    rw [foundFrom,List.flatten_cons] at hf ⊢
    generalize batchExistingIds events offset batch documents = existing at *
    generalize ((remaining events offset documents).filter (· ∈ batch)).length = n at *
    generalize foundFrom events (offset+batchSize) batches
      ((remaining events offset documents).filter (· ∉ batch)) = found at *
    constructor
    · intro ha
      have hmem : ∀ id ∈ existing, id ∈ existing.take n := by
        intro id hid
        have hin := (ha.deleted id).mpr ⟨List.mem_append_left _ hid,hf.gone id (List.mem_append_left _ hid)⟩
        rw [hdeleted] at hin
        refine (List.mem_append.mp hin).resolve_right fun hrest => ?_
        exact (hlater id (hf'.deleted_found id hrest)).1 (hbatch id hid)
      have hall : n = existing.length := by
        have hsub := (hnodup.subperm hmem).length_le
        rw [List.length_take] at hsub
        omega
      have hfull : existing.take n = existing := by rw [hall,List.take_length]
      rw [hfull] at hdeleted hinvalidated
      have hhead : ∀ id ∈ existing, id ∉ (events offset).removedMeanwhile ∧
          id ∉ (events offset).invalidationFails ∧ id ∉ batches.flatten := by
        intro id hid
        have hin : id ∈ r.deletedIds := by simp [hdeleted,hid]
        have hnotFoundRest : id ∉ found := fun hfound => (hlater id hfound).1 (hbatch id hid)
        refine ⟨hcount.mp hall id hid,?_,?_⟩
        · have hinv := ha.invalidated id hin
          rw [hinvalidated] at hinv
          rcases List.mem_append.mp hinv with hinv | hinv
          · simpa using (List.mem_filter.mp hinv).2
          · exact absurd (hf'.deleted_found id (hf'.invalidated_deleted id hinv)) hnotFoundRest
        · intro hflat
          have honce := ha.once id (List.mem_append_right _ hflat)
          have hboth : id ∈ r.notFoundIds := by
            simp [hnotFound,(hf'.listed id hflat).resolve_left hnotFoundRest]
          tauto
      refine ⟨hhead,?_,?_,hf'.count,?_⟩
      · intro id hid
        have hnot : id ∉ existing := fun hin => (hhead id hin).2.2 hid
        have honce := ha.once id (List.mem_append_right _ hid)
        rw [hdeleted,hnotFound,hf.failed] at honce
        rw [hf'.failed]
        have hlisted := hf'.listed id hid
        have hdeletedRest := ha.deleted id
        rw [hdeleted] at hdeletedRest
        have hgone := hf'.gone id
        simp only [List.mem_append,List.mem_filter,List.not_mem_nil,hnot,false_or,or_false,
          not_false_eq_true,and_true,and_false,not_or] at honce hdeletedRest ⊢
        tauto
      · intro id
        have hin := ha.deleted id
        rw [hdeleted,List.mem_append,List.mem_append] at hin
        have hgone := hf'.gone id
        have hfound := hf'.deleted_found id
        have hapart : id ∈ found → id ∉ existing := fun h h' => (hlater id h).1 (hbatch id h')
        tauto
      · intro id hid
        have hinv := ha.invalidated id (by simp [hdeleted,hid])
        rw [hinvalidated] at hinv
        refine (List.mem_append.mp hinv).resolve_left fun hin => ?_
        exact (hlater id (hf'.deleted_found id hid)).1 (hbatch id (List.mem_of_mem_filter hin))
    · rintro ⟨hhead,ha⟩
      have hfull : existing.take n = existing := by
        rw [hcount.mpr fun id hid => (hhead id hid).1,List.take_length]
      rw [hfull] at hdeleted hinvalidated
      refine ⟨?_,?_,hf.count,?_⟩
      · intro id hid
        rw [hdeleted,hnotFound,hf.failed]
        by_cases hin : id ∈ existing
        · refine .inl ⟨by simp [hin],fun hmissing => ?_,by simp⟩
          rcases List.mem_append.mp hmissing with hmissing | hmissing
          · simp [hin] at hmissing
          · exact (hhead id hin).2.2 (hf'.notFound_listed id hmissing)
        · have honce := ha.once id
          rw [hf'.failed] at honce
          by_cases hrest : id ∈ rest.deletedIds
          · obtain ⟨hout,hflat⟩ := hlater id (hf'.deleted_found id hrest)
            refine .inl ⟨by simp [hrest],fun hmissing => ?_,by simp⟩
            rcases List.mem_append.mp hmissing with hmissing | hmissing
            · exact hout (List.mem_of_mem_filter hmissing)
            · have hthis := honce hflat
              simp [hrest,hmissing] at hthis
          · refine .inr (.inl ⟨by simp [hin,hrest],?_,by simp⟩)
            rcases List.mem_append.mp hid with hid | hid
            · simp [hid,hin]
            · simp only [hrest,false_and,not_false_eq_true,List.not_mem_nil,and_true,
                true_and,false_or,and_false,or_false] at honce
              simp [honce hid]
      · intro id
        have hin := ha.deleted id
        have hgone := hf.gone id
        rw [hdeleted,List.mem_append,List.mem_append]
        rw [List.mem_append] at hgone
        tauto
      · intro id hid
        rw [hdeleted] at hid
        rw [hinvalidated,List.mem_append,List.mem_filter]
        rcases List.mem_append.mp hid with hid | hid
        · exact .inl ⟨hid,by simpa using (hhead id hid).2.1⟩
        · exact .inr (ha.invalidated id hid)

lemma flatten_batchesOf (memoryIds : List ℤ) : (batchesOf memoryIds).flatten = memoryIds := by
  refine ListLaws.flatten_slices ?_
  unfold batchSize
  omega

def found (events : ℕ → BatchEvents) (connected : Bool) (memoryIds documents : List ℤ) : List ℤ :=
  if connected then foundFrom events 0 (batchesOf memoryIds) documents else []

def Undisturbed (events : ℕ → BatchEvents) (connected : Bool) (memoryIds documents : List ℤ) :
    Prop := connected = true → UndisturbedFrom events 0 (batchesOf memoryIds) documents

/-- A call that returns accounts for every id exactly where no batch is disturbed. -/
theorem batch_delete_accounts_iff (events : ℕ → BatchEvents) (connected : Bool)
    (memoryIds documents after : List ℤ) (r : Report) (hdistinct : documents.Nodup)
    (h : batchDeleteMemoriesDetailed events connected memoryIds documents = some (r,after)) :
    r.Accounts memoryIds (found events connected memoryIds documents) after ↔
      Undisturbed events connected memoryIds documents := by
  unfold batchDeleteMemoriesDetailed at h
  unfold found Undisturbed
  cases connected with
  | false =>
    rw [if_pos (.inr rfl)] at h
    cases h
    exact iff_of_true (by constructor <;> simp) nofun
  | true =>
    rw [if_pos rfl,forall_prop_of_true rfl]
    split at h
    · rename_i hempty
      cases h
      obtain rfl : memoryIds = [] := by simpa using hempty
      exact iff_of_true (by constructor <;> simp [batchesOf,batchSize,foundFrom]) trivial
    · have hiff := accounts_iff hdistinct h
      rwa [flatten_batchesOf] at hiff

def vectorsRemoveRow : ℕ → BatchEvents := fun _ => { removedMeanwhile := [1] }

theorem removed_row_misreported :
    ∃ r after, batchDeleteMemoriesDetailed vectorsRemoveRow true [1,2] [1,2] = some (r,after) ∧
      r.deletedIds = [1] ∧ r.notFoundIds = [] ∧ r.failedIds = [] ∧ r.invalidated = [1] ∧
      ¬ r.Accounts [1,2] (found vectorsRemoveRow true [1,2] [1,2]) after := by
  refine ⟨_,_,rfl,by decide +kernel,by decide +kernel,by decide +kernel,by decide +kernel,?_⟩
  intro h
  have hnone := h.once 2 (by decide)
  revert hnone
  decide +kernel

theorem batch_delete_accounts_sample :
    ∃ r after, batchDeleteMemoriesDetailed (fun _ => {}) true [1,2,5] [1,2,3] = some (r,after) ∧
      r.Accounts [1,2,5] (found (fun _ => {}) true [1,2,5] [1,2,3]) after := by
  refine ⟨_,_,rfl,(batch_delete_accounts_iff _ _ _ _ _ _ (by decide) rfl).mpr fun _ => ?_⟩
  refine ⟨?_,trivial⟩
  decide +kernel

end Memora.BatchDelete
