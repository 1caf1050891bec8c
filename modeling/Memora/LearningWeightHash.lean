import Memora.LearningActions

/-! The text the adapter hashes and the text the domain hashes never coincide, so their
digests agree only on a collision of SHA-256. -/
namespace Memora.Learning

variable {F γ : Type*} {env : LearningEnv F γ}

lemma toList_jsonObject_pair (k₁ v₁ k₂ v₂ : String) : (jsonObject [(k₁,v₁),(k₂,v₂)]).toList =
      '\x7b' :: '"' :: (k₁.toList ++ '"' :: ':'::(v₁.toList ++ ',' :: '"' :: (k₂.toList ++
        '"' :: ':'::(v₂.toList++['\x7d'])))) := by
  simp [jsonObject,jsonString]

lemma weightsText_ne_namespacedText (ops : FloatOps F) (w : Weights F)
    (space payload : String) : weightsText ops w ≠ namespacedText space payload := by
  intro h
  have hlist := congrArg String.toList h
  simp only [weightsText,namespacedText,toList_jsonObject_pair] at hlist
  -- the first key starts with d in one text and with n in the other
  have hthird := congrArg (fun l : List Char => l[2]?) hlist
  simp at hthird

lemma split_at_comma {a b x y : List Char} (ha : ',' ∉ a) (hb : ',' ∉ b)
    (h : a ++ ','::x = b ++ ','::y) : a = b ∧ x = y := by
  induction a generalizing b with
  | nil =>
    cases b with
    | nil => exact ⟨rfl,(List.cons.inj h).2⟩
    | cons c b =>
      have hc : ',' = c := (List.cons.inj h).1
      exact absurd (by simp [← hc]) hb
  | cons c a ih =>
    cases b with
    | nil =>
      have hc : c = ',' := (List.cons.inj h).1
      exact absurd (by simp [hc]) ha
    | cons d b =>
      obtain ⟨hcd,htail⟩ := List.cons.inj h
      obtain ⟨hab,hxy⟩ := ih (fun hm => ha (by simp [hm])) (fun hm => hb (by simp [hm])) htail
      exact ⟨by rw [hcd,hab],hxy⟩

lemma weightsText_injective (ops : FloatOps F) : Function.Injective (weightsText ops) := by
  intro v w h
  have hlist := congrArg String.toList h
  simp only [weightsText,toList_jsonObject_pair,List.cons.injEq,true_and,
    List.append_cancel_left_eq] at hlist
  obtain ⟨hdocument,hrest⟩ := split_at_comma (ops.repr_plain _) (ops.repr_plain _) hlist
  simp only [List.cons.injEq,true_and,List.append_cancel_left_eq, List.append_cancel_right_eq]
    at hrest
  have hd := ops.repr_injective (String.toList_inj.mp hdocument)
  have hg := ops.repr_injective (String.toList_inj.mp hrest)
  cases v
  cases w
  simp_all

def weightTexts (env : LearningEnv F γ) : Set String :=
  {t | ∃ w, t = weightsText env.floats w ∨ t =
    namespacedText "learning-weight-v1" (weightsText env.floats w)}

def CollisionFree (env : LearningEnv F γ) : Prop := Set.InjOn env.digest (weightTexts env)

lemma snapshotHash_eq (h : CollisionFree env) {v w : Weights F} :
    env.snapshotHash v = env.snapshotHash w ↔ v = w := by
  constructor
  · intro heq
    exact weightsText_injective env.floats (h ⟨v,.inl rfl⟩ ⟨w,.inl rfl⟩ heq)
  · rintro rfl
    rfl

lemma snapshotHash_ne_weightSnapshotHash (h : CollisionFree env) (v w : Weights F) :
    env.weightSnapshotHash w ≠ some (env.snapshotHash v) := by
  intro heq
  obtain ⟨normalized,-,hhash⟩ := Option.map_eq_some_iff.mp heq
  have htexts := h ⟨normalized,.inr rfl⟩ ⟨v,.inl rfl⟩ hhash
  exact weightsText_ne_namespacedText env.floats v _ _ htexts.symm

lemma getWeightSnapshot_hash {c : γ} {s : ConfigSnapshot F}
    (h : env.getWeightSnapshot c = some s) : s.weightHash = env.snapshotHash s.weights := by
  unfold LearningEnv.getWeightSnapshot at h
  split at h
  · cases h
  · obtain ⟨w,-,rfl⟩ := Option.map_eq_some_iff.mp h
    rfl

lemma validatePublish_refuses {m : Manager F} {candidateId expectedRevision : String}
    {seen : ConfigSnapshot F} {current valid : Bool} {candidate : Candidate F}
    (hc : m.candidates.get? candidateId = some candidate)
    (hne : seen.weightHash ≠ candidate.baselineSnapshotHash) :
    (m.validatePublish candidateId expectedRevision seen current valid).isSome = true := by
  unfold Manager.validatePublish
  repeat' split
  all_goals first
    | rfl
    | simp_all

/-- The intents of publishes and rollbacks: the weights found before under the adapter's
hash, the weights to write under the domain's. -/
inductive Interrupted (env : LearningEnv F γ) : Intent F → Prop
  | publish {candidate : Candidate F} {candidateId : String} {parent : Option String}
      {expected operationId revision now : String} {c : γ} {seen : ConfigSnapshot F}
      (hseen : env.getWeightSnapshot c = some seen)
      (htarget : env.weightSnapshotHash candidate.proposed = some candidate.targetSnapshotHash) :
      Interrupted env
        (candidate.publishIntent candidateId parent expected seen operationId revision now)
  | rollback {source : RollbackSource F} {candidateId expected hash operationId now : String}
      {c : γ} {seen : ConfigSnapshot F} (hseen : env.getWeightSnapshot c = some seen)
      (htarget : env.weightSnapshotHash source.before = some hash) :
      Interrupted env (source.intent candidateId expected seen hash operationId now)

lemma Interrupted.hashes {intent : Intent F} (h : Interrupted env intent) :
    intent.beforeWeightHash = env.snapshotHash intent.before ∧
      env.weightSnapshotHash intent.target = some intent.targetWeightHash := by
  cases h with
  | publish hseen htarget | rollback hseen htarget => exact ⟨getWeightSnapshot_hash hseen,htarget⟩

/-- With the production adapter the two hashes of the same weights always differ: every
publish is refused by its binding check, and the recovery comparison recognizes the
weights before an interrupted action but never its target. -/
theorem weight_hashes_never_agree (hfree : CollisionFree env) {c : γ} {s : ConfigSnapshot F}
    (hs : env.getWeightSnapshot c = some s) : env.weightSnapshotHash s.weights ≠ some s.weightHash ∧
    (∀ (m : Manager F) candidateId candidate expected current valid,
      m.candidates.get? candidateId = some candidate →
      env.weightSnapshotHash s.weights = some candidate.baselineSnapshotHash →
      (m.validatePublish candidateId expected s current valid).isSome = true) ∧
    ∀ intent, Interrupted env intent →
      (compareIntentSnapshot intent s = .notApplied ↔ s.weights = intent.before) ∧
      compareIntentSnapshot intent s ≠ .applied := by
  have hhash := getWeightSnapshot_hash hs
  refine ⟨?_,?_,?_⟩
  · rw [hhash]
    exact snapshotHash_ne_weightSnapshotHash hfree _ _
  · intro m candidateId candidate expected current valid hc hbase
    apply validatePublish_refuses hc
    intro heq
    rw [← heq,hhash] at hbase
    exact snapshotHash_ne_weightSnapshotHash hfree _ _ hbase
  · intro intent hintent
    obtain ⟨hbefore,htarget⟩ := hintent.hashes
    have hnever : s.weightHash ≠ intent.targetWeightHash := by
      intro heq
      rw [← heq,hhash] at htarget
      exact snapshotHash_ne_weightSnapshotHash hfree _ _ htarget
    unfold compareIntentSnapshot
    rw [hbefore,hhash,← snapshotHash_eq hfree]
    rw [hhash] at hnever
    split
    · rename_i heq
      simp [heq]
    · rename_i hne
      simp [hne]

instance neZeroEleven : NeZero 11 := Nat.instNeZeroSucc

def tenths : FloatOps (Fin 11) where
  ofInt := fun n => if n = 0 then some 0 else if n = 1 then some 10 else none
  isFinite := fun _ => true
  zero := 0
  one := 10
  absTol := 0
  reloadTol := 0
  le := fun x y => x ≤ y
  add := fun x y => ⟨min 10 (x.val+y.val),by omega⟩
  isclose := fun x y _ => x = y
  repr := fun x => ["0.0","0.1","0.2","0.3","0.4","0.5","0.6","0.7","0.8","0.9", "1.0"][x.val]
  repr_injective := by decide +kernel
  repr_plain := by decide +kernel

def sevenThree : Weights (Fin 11) := ⟨7,3⟩

/-- The SHA-256 digests of the two texts of these weights; other texts stand for
themselves. -/
def sampleDigest (text : String) : String :=
  if text = weightsText tenths sevenThree then
    "5eb497f93a0e302aa9bbe4367cf996325d3545f361c5855a14f2e7e422330bb0"
  else if text = namespacedText "learning-weight-v1" (weightsText tenths sevenThree) then
    "bea6a52e1a635fa196aa6cbb197dff9007b9f89660caf0da2a31be4ce63c98e5"
  else text

def sampleConfig : ConfigOps (Fin 11) (Weights (Fin 11)) where
  revision := weightsText tenths
  json := fun w => jsonObject [("graph_memory",weightsText tenths w)]
  graphMemory := fun w => some (.float w.documentRouteWeight,.float w.graphRouteWeight)

def sampleLearning : LearningEnv (Fin 11) (Weights (Fin 11)) where
  floats := tenths
  config := sampleConfig
  digest := sampleDigest
  defaultWeights := sevenThree
  parseUtc := fun _ => none

/-- The adapter's hash of 0.7 and 0.3 is not the hash the domain computes for them. -/
theorem weight_hash_of_seven_three : (sampleLearning.getWeightSnapshot sevenThree).map
    (·.weightHash) =
        some "5eb497f93a0e302aa9bbe4367cf996325d3545f361c5855a14f2e7e422330bb0" ∧
      sampleLearning.weightSnapshotHash sevenThree =
        some "bea6a52e1a635fa196aa6cbb197dff9007b9f89660caf0da2a31be4ce63c98e5" := by
  decide +kernel

lemma head_of_weightText {t : String} (h : t ∈ weightTexts sampleLearning) :
    t.toList.head? = some '\x7b' := by
  obtain ⟨w,rfl | rfl⟩ := h
  · simp [weightsText,toList_jsonObject_pair]
  · simp [namespacedText,toList_jsonObject_pair]

lemma sampleLearning_collisionFree : CollisionFree sampleLearning := by
  intro s hs t ht h
  have hhead : ∀ hex : String, hex.toList.head? ≠ some '\x7b' →
      ∀ u ∈ weightTexts sampleLearning, u ≠ hex := by
    intro hex hne u hu heq
    exact hne (heq ▸ head_of_weightText hu)
  have hA := hhead "5eb497f93a0e302aa9bbe4367cf996325d3545f361c5855a14f2e7e422330bb0" (by decide)
  have hB := hhead "bea6a52e1a635fa196aa6cbb197dff9007b9f89660caf0da2a31be4ce63c98e5" (by decide)
  have hAB : "5eb497f93a0e302aa9bbe4367cf996325d3545f361c5855a14f2e7e422330bb0" ≠
      "bea6a52e1a635fa196aa6cbb197dff9007b9f89660caf0da2a31be4ce63c98e5" := by decide
  change sampleDigest s = sampleDigest t at h
  unfold sampleDigest at h
  generalize weightsText tenths sevenThree = a at h
  generalize namespacedText "learning-weight-v1" a = b at h
  generalize "5eb497f93a0e302aa9bbe4367cf996325d3545f361c5855a14f2e7e422330bb0" = hexA at *
  generalize "bea6a52e1a635fa196aa6cbb197dff9007b9f89660caf0da2a31be4ce63c98e5" = hexB at *
  grind

/-- The comparison at 0.7 and 0.3 with an intent that targets them. -/
theorem weight_hashes_never_agree_sample :
    sampleLearning.weightSnapshotHash sevenThree ≠ some (sampleLearning.snapshotHash sevenThree) :=
  (weight_hashes_never_agree sampleLearning_collisionFree
    (show sampleLearning.getWeightSnapshot sevenThree = some
      { revision := weightsText tenths sevenThree, weights := sevenThree,
        configHash := sampleLearning.configHash sevenThree,
        weightHash := sampleLearning.snapshotHash sevenThree } by decide +kernel)).1

end Memora.Learning
