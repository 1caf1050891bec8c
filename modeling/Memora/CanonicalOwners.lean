import Memora.CanonicalIdempotency
import Memora.RunLaws

/-! The owner of a key is the smallest id that carries it; rebuilding finds the owners, the
triggers keep them. -/
namespace Memora.Canonical

variable {documents documents' : Dict ℕ Metadata} {mapping : Dict String ℕ} {k k' : String}
  {id j : ℕ} {m old : Metadata}

lemma sqlTrim_eq_pythonStrip (s : String) : sqlTrim s = pythonStrip s := by
  have hset : ∀ c : Char, pythonStripWhitespaceCodepoints.contains c.toNat = pythonIsSpace c := by
    intro c
    have hiff : c.toNat ∈ pythonStripWhitespaceCodepoints ↔ pythonIsSpace c = true := by
      simp only [pythonStripWhitespaceCodepoints,pythonIsSpace,List.mem_cons,List.not_mem_nil,
        or_false,Bool.or_eq_true,Bool.and_eq_true,decide_eq_true_eq]
      generalize c.toNat = n
      omega
    rw [Bool.eq_iff_iff,List.contains_iff_mem,hiff]
  unfold sqlTrim pythonStrip
  congr 1
  exact funext hset

lemma sqlLength_pos (h : '\x00' ∉ k.toList) : 0 < sqlLength k ↔ k ≠ "" := by
  have hall : k.toList.takeWhile (· ≠ '\x00') = k.toList := by
    rw [List.takeWhile_eq_self_iff]
    intro c hc
    have hne : c ≠ '\x00' := by
      rintro rfl
      exact h hc
    simpa using hne
  rw [sqlLength,hall,List.length_pos_iff,ne_eq,String.toList_eq_nil_iff]

lemma mem_stripWhere {cut : Char → Bool} {s : String} {c : Char}
    (h : c ∈ (stripWhere cut s).toList) : c ∈ s.toList := by
  simp only [stripWhere,String.toList_ofList,List.mem_reverse] at h
  have hreversed := (List.dropWhile_suffix _).subset h
  exact (List.dropWhile_suffix _).subset (List.mem_reverse.mp hreversed)

lemma usableKey_some : usableKey m = some k ↔ normalizedKeySql m = some k ∧ 0 < sqlLength k := by
  simp [usableKey]

lemma usableKey_congr (h : (normalizedKeySql old).getD "" = (normalizedKeySql m).getD "") :
    usableKey old = usableKey m := by
  have hempty : (some "").filter (fun k => decide (0 < sqlLength k)) = none := by decide
  unfold usableKey
  cases ho : normalizedKeySql old with
  | none =>
    cases hm : normalizedKeySql m with
    | none => rfl
    | some k =>
      rw [ho,hm] at h
      obtain rfl : "" = k := h
      rw [hempty,Option.filter_none]
  | some k =>
    cases hm : normalizedKeySql m with
    | none =>
      rw [ho,hm] at h
      obtain rfl : k = "" := h
      rw [hempty,Option.filter_none]
    | some k' =>
      rw [ho,hm] at h
      obtain rfl : k = k' := h
      rfl

def Carries (documents : Dict ℕ Metadata) (k : String) (id : ℕ) : Prop :=
  ∃ m, documents.get? id = some m ∧ usableKey m = some k

structure OwnerOf (documents : Dict ℕ Metadata) (k : String) (id : ℕ) : Prop where
  carries : Carries documents k id
  least : ∀ j, Carries documents k j → id ≤ j

lemma OwnerOf.unique (h : OwnerOf documents k id) (h' : OwnerOf documents k j) : id = j :=
  le_antisymm (h.least j h'.carries) (h'.least id h.carries)

lemma Carries.owner (h : Carries documents k j) : ∃ i, OwnerOf documents k i := by
  classical
  have hex : ∃ i, Carries documents k i := ⟨j,h⟩
  exact ⟨Nat.find hex,Nat.find_spec hex,fun i hi => Nat.find_min' hex hi⟩

lemma Carries.key_unique (h : Carries documents k id) (h' : Carries documents k' id) : k = k' := by
  obtain ⟨m,hm,hk⟩ := h
  obtain ⟨m',hm',hk'⟩ := h'
  obtain rfl := Option.some.inj (hm.symm.trans hm')
  exact Option.some.inj (hk.symm.trans hk')

def MapsOwners (documents : Dict ℕ Metadata) (mapping : Dict String ℕ) : Prop :=
  ∀ k id, mapping.get? k = some id ↔ OwnerOf documents k id

lemma MapsOwners.none_iff (h : MapsOwners documents mapping) :
    mapping.get? k = none ↔ ∀ j, ¬ Carries documents k j := by
  constructor
  · intro hnone j hj
    obtain ⟨i,hi⟩ := hj.owner
    exact absurd (hnone.symm.trans ((h k i).mpr hi)) (by simp)
  · intro hno
    cases hg : mapping.get? k with
    | none => rfl
    | some i => exact absurd ((h k i).mp hg).carries (hno i)

lemma insertMapping_some {mapping' : Dict String ℕ}
    (h : insertMapping mapping k id = some mapping') :
    mapping.get? k = none ∧ (∀ k', mapping.get? k' ≠ some id) ∧ mapping' = mapping.set k id := by
  unfold insertMapping at h
  split at h
  · cases h
  · rename_i hfree
    simp only [Bool.or_eq_true,Option.isSome_iff_ne_none,List.contains_iff_mem,Dict.mem_values,
      not_or,not_exists,not_not] at hfree
    exact ⟨hfree.1,hfree.2,(Option.some.inj h).symm⟩

/-- A key that nobody carries is given to a memory that carries it now. -/
theorem MapsOwners.insert (h : MapsOwners documents mapping)
    (hcarries : ∀ k' j, Carries documents' k' j ↔ Carries documents k' j ∨ k' = k ∧ j = id)
    (hfree : mapping.get? k = none) : MapsOwners documents' (mapping.set k id) := by
  have hno := h.none_iff.mp hfree
  have howner : OwnerOf documents' k id := by
    refine ⟨(hcarries k id).mpr (.inr ⟨rfl,rfl⟩),fun j hj => ?_⟩
    rcases (hcarries k j).mp hj with hold | ⟨-,rfl⟩
    · exact absurd hold (hno j)
    · exact le_rfl
  intro k' j
  rw [Dict.get?_set]
  split
  · rename_i hk
    subst hk
    constructor
    · intro hj
      rwa [← Option.some.inj hj]
    · intro hj
      rw [howner.unique hj]
  · rename_i hk
    have hsame : ∀ i, Carries documents' k' i ↔ Carries documents k' i := by
      intro i
      rw [hcarries]
      exact ⟨fun hi => hi.elim (fun hi => hi) fun hi => absurd hi.1 hk,.inl⟩
    rw [h k' j]
    exact ⟨fun ho => ⟨(hsame j).mpr ho.carries,fun i hi => ho.least i ((hsame i).mp hi)⟩,
      fun ho => ⟨(hsame j).mp ho.carries,fun i hi => ho.least i ((hsame i).mpr hi)⟩⟩

lemma MapsOwners.congr (h : MapsOwners documents mapping)
    (hcarries : ∀ k j, Carries documents' k j ↔ Carries documents k j) :
    MapsOwners documents' mapping := by
  intro k id
  rw [h k id]
  exact ⟨fun ho => ⟨(hcarries k id).mpr ho.carries,fun j hj => ho.least j ((hcarries k j).mp hj)⟩,
    fun ho => ⟨(hcarries k id).mp ho.carries,fun j hj => ho.least j ((hcarries k j).mpr hj)⟩⟩

lemma smallestOwner_some (hk : 0 < sqlLength k) :
    smallestOwner documents k = some id ↔ OwnerOf documents k id := by
  have hmem : ∀ j, j ∈ (documents.filter fun _ m => normalizedKeySql m = some k).keys ↔
      Carries documents k j := by
    intro j
    rw [Dict.mem_keys]
    simp only [Dict.get?_filter,decide_eq_true_eq,Carries,usableKey_some,hk,and_true]
  rw [smallestOwner,List.min?_eq_some_iff,hmem]
  exact ⟨fun h => ⟨h.1,fun j hj => h.2 j ((hmem j).mpr hj)⟩,
    fun h => ⟨h.carries,fun j hj => h.least j ((hmem j).mp hj)⟩⟩

lemma MapsOwners.passOn (h : MapsOwners documents mapping) (hid : documents.get? id = some old)
    (hcarries : ∀ k j, Carries documents' k j ↔ Carries documents k j ∧ j ≠ id) :
    MapsOwners documents' (passOn documents' (dropOwner mapping id) (usableKey old)) := by
  have hdrop : ∀ k j, (dropOwner mapping id).get? k = some j ↔ OwnerOf documents k j ∧ j ≠ id := by
    intro k j
    rw [dropOwner,Dict.get?_filter,h k j]
    simp
  -- an owner that stays is an owner still
  have hstays : ∀ k j, OwnerOf documents k j → j ≠ id → OwnerOf documents' k j := by
    intro k j ho hne
    exact ⟨(hcarries k j).mpr ⟨ho.carries,hne⟩,
      fun i hi => ho.least i ((hcarries k i).mp hi).1⟩
  -- only the key of the memory that goes can get a new owner
  have hother : ∀ k j, usableKey old ≠ some k → (OwnerOf documents' k j ↔ OwnerOf documents k j ∧ j ≠ id) := by
    intro k j hk
    have hnot : ¬ Carries documents k id := by
      rintro ⟨m,hm,hmk⟩
      obtain rfl := Option.some.inj (hid.symm.trans hm)
      exact hk hmk
    constructor
    · intro ho
      obtain ⟨hj,hne⟩ := (hcarries k j).mp ho.carries
      refine ⟨⟨hj,fun i hi => ho.least i ((hcarries k i).mpr ⟨hi,?_⟩)⟩,hne⟩
      rintro rfl
      exact hnot hi
    · exact fun ho => hstays k j ho.1 ho.2
  unfold Canonical.passOn
  cases hk : usableKey old with
  | none =>
    intro k j
    rw [hdrop,hother k j (by simp [hk])]
  | some k₀ =>
    have hlength : 0 < sqlLength k₀ := (usableKey_some.mp hk).2
    dsimp only
    cases hs : smallestOwner documents' k₀ with
    | none =>
      intro k j
      by_cases hkk : k = k₀
      · subst hkk
        have hno : ∀ i, ¬ OwnerOf documents' k i := by
          intro i hi
          rw [(smallestOwner_some hlength).mpr hi] at hs
          cases hs
        rw [hdrop]
        exact ⟨fun hj => absurd (hstays k j hj.1 hj.2) (hno j),fun hj => absurd hj (hno j)⟩
      · rw [hdrop,hother k j (by simpa [hk] using Ne.symm hkk)]
    | some i =>
      have hi := (smallestOwner_some hlength).mp hs
      dsimp only
      cases hins : insertMapping (dropOwner mapping id) k₀ i with
      | none =>
        -- the key was never this memory's in the mapping
        have hkept : (dropOwner mapping id).get? k₀ = some i := by
          unfold insertMapping at hins
          split at hins
          · rename_i htaken
            rcases (Bool.or_eq_true _ _).mp htaken with htaken | htaken
            · obtain ⟨j,hj⟩ := Option.isSome_iff_exists.mp htaken
              have hj' := (hdrop k₀ j).mp hj
              rwa [(hstays k₀ j hj'.1 hj'.2).unique hi] at hj
            · rw [List.contains_iff_mem,Dict.mem_values] at htaken
              obtain ⟨k',hk'⟩ := htaken
              have ho := ((hdrop k' i).mp hk').1
              have hsame := ho.carries.key_unique ((hcarries k₀ i).mp hi.carries).1
              rwa [hsame] at hk'
          · cases hins
        intro k j
        rw [Option.getD_none]
        by_cases hkk : k = k₀
        · subst hkk
          rw [hkept]
          exact ⟨fun hj => Option.some.inj hj ▸ hi,fun hj => by rw [hi.unique hj]⟩
        · rw [hdrop,hother k j (by simpa [hk] using Ne.symm hkk)]
      | some mapping' =>
        obtain ⟨-,-,rfl⟩ := insertMapping_some hins
        intro k j
        rw [Option.getD_some,Dict.get?_set]
        split
        · rename_i hkk
          subst hkk
          exact ⟨fun hj => Option.some.inj hj ▸ hi,fun hj => by rw [hi.unique hj]⟩
        · rename_i hkk
          rw [hdrop,hother k j (by simpa [hk] using Ne.symm hkk)]

namespace IdempotencyTables
variable {s s' : IdempotencyTables}

def Right (s : IdempotencyTables) : Prop := MapsOwners s.documents s.mapping

lemma carries_set : Carries (documents.set id m) k j ↔
    if j = id then usableKey m = some k else Carries documents k j := by
  unfold Carries
  rw [Dict.get?_set]
  split
  · simp
  · exact Iff.rfl

lemma right_insert (h : s.Right) (hs : s.insertDocument id m = some s') : s'.Right := by
  unfold insertDocument at hs
  split at hs
  · cases hs
  rename_i hnew
  have hnone : ∀ k, ¬ Carries s.documents k id := by
    rintro k ⟨m',hm',-⟩
    exact hnew (by simp [hm'])
  split at hs
  · rename_i hkey
    cases hs
    refine h.congr fun k j => ?_
    rw [carries_set]
    split
    · rename_i hj
      subst hj
      simp [hkey,hnone k]
    · exact Iff.rfl
  · rename_i k hkey
    obtain ⟨mapping,hins,rfl⟩ := Option.map_eq_some_iff.mp hs
    obtain ⟨hfree,-,rfl⟩ := insertMapping_some hins
    refine h.insert (fun k' j => ?_) hfree
    rw [carries_set]
    split
    · rename_i hj
      subst hj
      simp [hkey,hnone k',eq_comm]
    · rename_i hj
      simp [hj]

lemma insert_refused (h : s.Right) (hkey : usableKey m = some k)
    (hc : Carries s.documents k j) : s.insertDocument id m = none := by
  obtain ⟨i,hi⟩ := hc.owner
  have hget : s.mapping.get? k = some i := (h k i).mpr hi
  unfold insertDocument
  split
  · rfl
  · rw [hkey]
    simp [insertMapping,hget]

lemma right_update (h : s.Right) (hs : s.updateMetadata id m = some s') : s'.Right := by
  unfold updateMetadata at hs
  split at hs
  · cases hs
    exact h
  rename_i old hid
  have hold : ∀ k, Carries s.documents k id ↔ usableKey old = some k := by
    intro k
    simp [Carries,hid]
  dsimp only at hs
  split at hs
  · -- the key stays
    rename_i hsame
    cases hs
    refine h.congr fun k j => ?_
    rw [carries_set,← usableKey_congr hsame]
    split
    · rename_i hj
      rw [hj,hold]
    · exact Iff.rfl
  · rename_i hchanged
    -- first without the new key, then with it
    have hgone : MapsOwners (s.documents.pop id)
        (passOn (s.documents.pop id) (dropOwner s.mapping id) (usableKey old)) := by
      refine h.passOn hid fun k j => ?_
      simp only [Carries,Dict.get?_pop]
      tauto
    have hpass : passOn (s.documents.set id m) (dropOwner s.mapping id) (usableKey old) =
        passOn (s.documents.pop id) (dropOwner s.mapping id) (usableKey old) := by
      unfold Canonical.passOn
      cases hk : usableKey old with
      | none => rfl
      | some k =>
        have hlength : 0 < sqlLength k := (usableKey_some.mp hk).2
        have hsmallest : smallestOwner (s.documents.set id m) k = smallestOwner (s.documents.pop id) k := by
          have hcarries : ∀ j, Carries (s.documents.set id m) k j ↔ Carries (s.documents.pop id) k j := by
            intro j
            rw [carries_set]
            simp only [Carries,Dict.get?_pop]
            split
            · rename_i hj
              have hne : usableKey m ≠ some k := by
                intro hm
                apply hchanged
                rw [(usableKey_some.mp hk).1,(usableKey_some.mp hm).1]
              simp [hne,hj]
            · rename_i hj
              simp [hj]
          apply Option.ext
          intro i
          rw [smallestOwner_some hlength,smallestOwner_some hlength]
          exact ⟨fun ho => ⟨(hcarries i).mp ho.carries,fun j hj => ho.least j ((hcarries j).mpr hj)⟩,
            fun ho => ⟨(hcarries i).mpr ho.carries,fun j hj => ho.least j ((hcarries j).mp hj)⟩⟩
        dsimp only
        rw [hsmallest]
    rw [hpass] at hs
    split at hs
    · rename_i hkey
      cases hs
      refine hgone.congr fun k j => ?_
      rw [carries_set]
      simp only [Carries,Dict.get?_pop]
      split
      · rename_i hj
        simp [hkey,hj]
      · rename_i hj
        simp [hj]
    · rename_i k hkey
      obtain ⟨mapping,hins,rfl⟩ := Option.map_eq_some_iff.mp hs
      obtain ⟨hfree,-,rfl⟩ := insertMapping_some hins
      refine hgone.insert (fun k' j => ?_) hfree
      rw [carries_set]
      simp only [Carries,Dict.get?_pop]
      split
      · rename_i hj
        simp [hkey,hj,eq_comm]
      · rename_i hj
        simp [hj]

lemma right_delete (h : s.Right) : (s.deleteDocument id).Right := by
  unfold deleteDocument
  split
  · exact h
  · rename_i old hid
    refine h.passOn hid fun k j => ?_
    simp only [Carries,Dict.get?_pop]
    tauto

lemma right_step (h : s.Right) (call : DocumentCall) : (s.step call).Right := by
  cases call with
  | insert id m =>
    change ((s.insertDocument id m).getD s).Right
    cases hs : s.insertDocument id m with
    | none => exact h
    | some s' => exact right_insert h hs
  | update id m =>
    change ((s.updateMetadata id m).getD s).Right
    cases hs : s.updateMetadata id m with
    | none => exact h
    | some s' => exact right_update h hs
  | delete id => exact right_delete h

def carriers (k : String) (rows : List (ℕ × Metadata)) : List ℕ :=
  (rows.filter fun e => usableKey e.2 = some k).map Prod.fst

lemma get?_rebuildFold (rows : List (ℕ × Metadata)) (mapping : Dict String ℕ) (k : String) :
    (rows.foldl (fun mapping e => match usableKey e.2 with
      | none => mapping
      | some k => mapping.set k (((mapping.get? k).map (min e.1)).getD e.1)) mapping).get? k =
      ((mapping.get? k).toList++carriers k rows).min? := by
  induction rows generalizing mapping with
  | nil =>
    cases hg : mapping.get? k with
    | none | some => simp [carriers,hg]
  | cons e rows ih =>
    rw [List.foldl_cons,ih]
    cases he : usableKey e.2 with
    | none => simp [carriers,he]
    | some k₀ =>
      by_cases hk : k = k₀
      · subst hk
        cases hg : mapping.get? k with
        | none => simp [carriers,he,hg]
        | some i =>
          simp only [carriers,he,hg,Dict.get?_set_self,Option.map_some,Option.getD_some,
            Option.toList_some,List.filter_cons,decide_true,if_true,List.map_cons,
            List.cons_append,List.nil_append,List.min?_cons',List.foldl_cons,min_comm]
      · have hne : ¬ k₀ = k := Ne.symm hk
        simp [carriers,he,hne,Dict.get?_set_of_ne hk]

lemma right_rebuild (documents : Dict ℕ Metadata) : (rebuild documents).Right := by
  intro k id
  have hmem : ∀ j, j ∈ carriers k documents.entries ↔ Carries documents k j := by
    intro j
    simp only [carriers,List.mem_map,List.mem_filter,decide_eq_true_eq,Carries, Dict.get?_eq_some]
    constructor
    · rintro ⟨⟨j',m⟩,⟨hmem,hk⟩,rfl⟩
      exact ⟨m,hmem,hk⟩
    · rintro ⟨m,hmem,hk⟩
      exact ⟨(j,m),⟨hmem,hk⟩,rfl⟩
  have hget : (rebuild documents).mapping.get? k = (carriers k documents.entries).min? := by
    have hfold := get?_rebuildFold documents.entries {} k
    rwa [Dict.get?_empty,Option.toList_none,List.nil_append] at hfold
  rw [hget,List.min?_eq_some_iff,hmem]
  exact ⟨fun h => ⟨h.1,fun j hj => h.2 j ((hmem j).mpr hj)⟩,
    fun h => ⟨h.carries,fun j hj => h.least j ((hmem j).mp hj)⟩⟩

lemma validate_right (h : s.Right) : s.validate = true := by
  have hvalid : s.mapping.entries.any (strayEntry s.documents) = false := by
    rw [List.any_eq_false]
    rintro ⟨k,id⟩ he
    obtain ⟨m,hm,hk⟩ := ((h k id).mp (Dict.get?_eq_some.mpr he)).carries
    simp [strayEntry,hm,(usableKey_some.mp hk).1]
  have howners : ((rebuild s.documents).mapping.entries.any fun e =>
      s.mapping.get? e.1 ≠ some e.2) = false := by
    rw [List.any_eq_false]
    rintro ⟨k,id⟩ he
    have howner := (right_rebuild s.documents k id).mp (Dict.get?_eq_some.mpr he)
    simp [(h k id).mpr howner]
  unfold validate
  rw [hvalid,howners]
  rfl

lemma find_right (h : s.Right) (key : String) : (∃ id, s.find key = .ok (some id) ∧
        OwnerOf s.documents (normalizeCanonicalIdempotencyKey key) id) ∨
      s.find key = .ok none ∧
        ∀ j, ¬ Carries s.documents (normalizeCanonicalIdempotencyKey key) j := by
  unfold find
  dsimp only
  split
  · rename_i hempty
    refine .inr ⟨rfl,fun j hj => ?_⟩
    obtain ⟨m,-,hk⟩ := hj
    rw [hempty] at hk
    exact absurd (usableKey_some.mp hk).2 (by decide)
  · split
    · rename_i hnone
      exact .inr ⟨rfl,h.none_iff.mp hnone⟩
    · rename_i id hid
      have howner := (h _ id).mp hid
      obtain ⟨m,hm,-⟩ := howner.carries
      exact .inl ⟨id,by simp [hm],howner⟩

lemma usableKey_text {raw : String} (hkey : m.idempotencyKey = some (.text raw))
    (hnul : '\x00' ∉ raw.toList) : usableKey m =
      if normalizeCanonicalIdempotencyKey raw = "" then none
      else some (normalizeCanonicalIdempotencyKey raw) := by
  have hsql : normalizedKeySql m = some (normalizeCanonicalIdempotencyKey raw) := by
    simp [normalizedKeySql,hkey,JsonField.text?,sqlTrim_eq_pythonStrip, normalizeCanonicalIdempotencyKey]
  have hlength : 0 < sqlLength (normalizeCanonicalIdempotencyKey raw) ↔
      normalizeCanonicalIdempotencyKey raw ≠ "" :=
    sqlLength_pos fun hmem => hnul (mem_stripWhere hmem)
  rw [usableKey,hsql,Option.filter_some]
  split
  · rename_i hpos
    rw [if_neg (hlength.mp (by simpa using hpos))]
  · rename_i hpos
    rw [if_pos (by_contra fun hne => hpos (by simpa using hlength.mpr hne))]

/-- After a rebuild, whatever is inserted, updated and deleted: the mapping holds exactly the
smallest id for each own key, the check accepts it, an insert is refused while a memory
carries its key, lookups find these owners, and the key of a text without a NUL is the one
lookups of that text use. -/
theorem mapping_tracks_owners (documents : Dict ℕ Metadata) (calls : List DocumentCall) :
    (∀ k id, ((rebuild documents).run calls).mapping.get? k = some id ↔
      OwnerOf ((rebuild documents).run calls).documents k id) ∧
    ((rebuild documents).run calls).validate = true ∧
    (∀ id j m k, usableKey m = some k → Carries ((rebuild documents).run calls).documents k j →
      ((rebuild documents).run calls).insertDocument id m = none) ∧
    (∀ s : String, sqlTrim s = pythonStrip s) ∧
    (∀ key, (∃ id, ((rebuild documents).run calls).find key = .ok (some id) ∧
        OwnerOf ((rebuild documents).run calls).documents (normalizeCanonicalIdempotencyKey key) id) ∨
      ((rebuild documents).run calls).find key = .ok none ∧
        ∀ j, ¬ Carries ((rebuild documents).run calls).documents (normalizeCanonicalIdempotencyKey key) j) ∧
    ∀ m raw, m.idempotencyKey = some (.text raw) → '\x00' ∉ raw.toList →
      usableKey m = if normalizeCanonicalIdempotencyKey raw = "" then none
        else some (normalizeCanonicalIdempotencyKey raw) := by
  have h : ((rebuild documents).run calls).Right :=
    RunLaws.foldl_invariant (P := Right) (fun _ call hs => right_step hs call)
    (right_rebuild documents) calls
  exact ⟨h,validate_right h,fun id j m k hk hc => insert_refused h hk hc,
    sqlTrim_eq_pythonStrip,find_right h,fun m raw hkey hnul => usableKey_text hkey hnul⟩

/-- A merged key has no entry; the key of a deleted memory can be inserted again; and a key
that begins with a NUL has no length in SQL, so it is inserted twice. -/
theorem mapping_leaves_keys_out :
    (rebuild ⟨[(1,{ mergedIdempotencyKeys := some [.text "a"] })],by simp⟩).mapping.get?
    "a" = none ∧
      ((({} : IdempotencyTables).insertDocument 1 { idempotencyKey := some (.text "a") }).bind
        fun s => (s.deleteDocument 1).insertDocument 2
          { idempotencyKey := some (.text "a") }).isSome = true ∧
      normalizeCanonicalIdempotencyKey "\x00a" ≠ "" ∧
      ((({} : IdempotencyTables).insertDocument 1 { idempotencyKey := some (.text "\x00a") }).bind
        fun s => s.insertDocument 2 { idempotencyKey := some (.text "\x00a") }).isSome = true := by
  decide +kernel

end IdempotencyTables

end Memora.Canonical
