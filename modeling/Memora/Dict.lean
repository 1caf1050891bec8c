import Mathlib

/-! Entries in insertion order with pairwise distinct keys: assignment keeps the place of a
key that is present. Everything is stated through `get?`. -/
namespace Memora

structure Dict (κ ν : Type*) where
  entries : List (κ × ν) := []
  nodup : (entries.map Prod.fst).Nodup := by first | exact List.nodup_nil | simp
  deriving DecidableEq

namespace Dict
variable {κ ν μ : Type*} [DecidableEq κ] {d : Dict κ ν} {k k' : κ} {v : ν}

def get? (d : Dict κ ν) (k : κ) : Option ν :=
  (d.entries.find? fun e => e.1 = k).map Prod.snd

def keys (d : Dict κ ν) : List κ := d.entries.map Prod.fst

def values (d : Dict κ ν) : List ν := d.entries.map Prod.snd

def isEmpty (d : Dict κ ν) : Bool := d.entries.isEmpty

/-- Replace the value of a present key in place, or append the entry. -/
def assign (k : κ) (v : ν) : List (κ × ν) → List (κ × ν)
  | [] => [(k,v)]
  | e::es => if e.1 = k then (k,v)::es else e::assign k v es

variable {es : List (κ × ν)}

lemma mem_keys_assign : k' ∈ (assign k v es).map Prod.fst ↔ k' = k ∨ k' ∈ es.map Prod.fst := by
  induction es with
  | nil => simp [assign]
  | cons e es ih =>
    rw [assign]
    split
    · rename_i he
      simp [he]
    · rw [List.map_cons,List.mem_cons,ih,List.map_cons,List.mem_cons]
      tauto

lemma nodup_assign (h : (es.map Prod.fst).Nodup) : ((assign k v es).map Prod.fst).Nodup := by
  induction es with
  | nil => simp [assign]
  | cons e es ih =>
    have hcons : e.1 ∉ es.map Prod.fst ∧ (es.map Prod.fst).Nodup := List.nodup_cons.mp h
    rw [assign]
    split
    · rename_i he
      subst he
      simpa using h
    · rename_i he
      rw [List.map_cons,List.nodup_cons]
      refine ⟨?_,ih hcons.2⟩
      intro hmem
      rcases mem_keys_assign.mp hmem with heq | hold
      · exact he heq
      · exact hcons.1 hold

def set (d : Dict κ ν) (k : κ) (v : ν) : Dict κ ν :=
  ⟨assign k v d.entries,nodup_assign d.nodup⟩

/-- `{k: v for k, v in d.items() if p(k, v)}`. -/
def filter (p : κ → ν → Bool) (d : Dict κ ν) : Dict κ ν :=
  ⟨d.entries.filter fun e => p e.1 e.2,d.nodup.sublist (List.filter_sublist.map _)⟩

/-- `d.pop(k, None)`. -/
def pop (d : Dict κ ν) (k : κ) : Dict κ ν := d.filter fun k' _ => k' ≠ k

def update (d d' : Dict κ ν) : Dict κ ν := d'.entries.foldl (fun d e => d.set e.1 e.2) d

/-- `d.pop(k, None)` for each key. -/
def popAll (d : Dict κ ν) (ks : List κ) : Dict κ ν := d.filter fun k _ => k ∉ ks

/-- `d == d'`, which ignores the order of the entries. -/
def same [DecidableEq ν] (d d' : Dict κ ν) : Bool :=
  (d.keys++d'.keys).all fun k => d.get? k = d'.get? k

def mapValues (f : ν → μ) (d : Dict κ ν) : Dict κ μ :=
  ⟨d.entries.map fun e => (e.1,f e.2),by
    simpa [List.map_map,Function.comp_def] using d.nodup⟩

lemma get?_eq_some : d.get? k = some v ↔ (k,v) ∈ d.entries := by
  unfold get?
  constructor
  · intro h
    obtain ⟨e,he,hv⟩ := Option.map_eq_some_iff.mp h
    have hk : e.1 = k := by simpa using List.find?_some he
    have hmem := List.mem_of_find?_eq_some he
    rwa [show (k,v) = e from Prod.ext hk.symm hv.symm]
  · intro h
    cases hf : d.entries.find? fun e => e.1 = k with
    | none =>
      have hno := List.find?_eq_none.mp hf (k,v) h
      simp at hno
    | some e =>
      have hk : e.1 = k := by simpa using List.find?_some hf
      have hmem := List.mem_of_find?_eq_some hf
      have heq : e = (k,v) := List.inj_on_of_nodup_map d.nodup hmem h hk
      simp [heq]

lemma get?_eq_none : d.get? k = none ↔ k ∉ d.keys := by
  constructor
  · intro h hk
    obtain ⟨e,he,hek⟩ := List.mem_map.mp hk
    have hs : d.get? k = some e.2 := get?_eq_some.mpr (by rw [← hek]; exact he)
    rw [h] at hs
    cases hs
  · intro hk
    cases hg : d.get? k with
    | none => rfl
    | some v => exact absurd (List.mem_map_of_mem (get?_eq_some.mp hg)) hk

lemma mem_keys : k ∈ d.keys ↔ ∃ v, d.get? k = some v := by
  rw [← not_iff_not,← get?_eq_none]
  simp [Option.eq_none_iff_forall_ne_some]

lemma mem_values : v ∈ d.values ↔ ∃ k, d.get? k = some v := by
  simp [values,get?_eq_some]

@[simp] lemma get?_empty (k : κ) : ({} : Dict κ ν).get? k = none := rfl

lemma mem_entries_assign (h : (es.map Prod.fst).Nodup) {v' : ν} :
    (k',v') ∈ assign k v es ↔ if k' = k then v' = v else (k',v') ∈ es := by
  induction es with
  | nil => by_cases hk : k' = k <;> simp [assign]
  | cons e es ih =>
    have hcons : e.1 ∉ es.map Prod.fst ∧ (es.map Prod.fst).Nodup := List.nodup_cons.mp h
    rw [assign]
    split
    · rename_i he
      subst he
      by_cases hk : k' = e.1
      · subst hk
        have hno : (e.1,v') ∉ es := fun hmem => hcons.1 (List.mem_map.mpr ⟨_,hmem,rfl⟩)
        simp [hno]
      · have hne : (k',v') ≠ e := fun heq => hk (congrArg Prod.fst heq)
        simp [hk,hne]
    · rename_i he
      rw [List.mem_cons,ih hcons.2]
      by_cases hk : k' = k
      · have hne : (k,v') ≠ e := fun heq => he (congrArg Prod.fst heq).symm
        simp [hk,hne]
      · simp [hk]

lemma get?_set : (d.set k v).get? k' = if k' = k then some v else d.get? k' := by
  apply Option.ext
  intro w
  rw [get?_eq_some,set,mem_entries_assign d.nodup]
  split
  · simp [eq_comm]
  · exact get?_eq_some.symm

@[simp] lemma get?_set_self : (d.set k v).get? k = some v := by simp [get?_set]

lemma get?_set_of_ne (h : k' ≠ k) : (d.set k v).get? k' = d.get? k' := by
  simp [get?_set,h]

lemma get?_filter {p : κ → ν → Bool} : (d.filter p).get? k = some v ↔
    d.get? k = some v ∧ p k v = true := by
  rw [get?_eq_some,get?_eq_some,filter]
  simp

lemma get?_pop : (d.pop k).get? k' = some v ↔ d.get? k' = some v ∧ k' ≠ k := by
  simp [pop,get?_filter]

lemma get?_pop_of_ne (h : k' ≠ k) : (d.pop k).get? k' = d.get? k' := by
  apply Option.ext
  intro w
  simp [get?_pop,h]

lemma get?_foldl_set (h : (es.map Prod.fst).Nodup) (d : Dict κ ν) :
    (es.foldl (fun d e => d.set e.1 e.2) d).get? k =
      ((es.find? fun e => e.1 = k).map Prod.snd).or (d.get? k) := by
  induction es generalizing d with
  | nil => rfl
  | cons e es ih =>
    have hcons : e.1 ∉ es.map Prod.fst ∧ (es.map Prod.fst).Nodup := List.nodup_cons.mp h
    rw [List.foldl_cons,ih hcons.2,get?_set,List.find?_cons]
    by_cases hk : k = e.1
    · subst hk
      have hnone : es.find? (fun x => x.1 = e.1) = none := by
        refine List.find?_eq_none.mpr fun x hx hxk => hcons.1 ?_
        rw [← show x.1 = e.1 by simpa using hxk]
        exact List.mem_map_of_mem hx
      simp [hnone]
    · simp [hk,Ne.symm hk]

lemma get?_update (d d' : Dict κ ν) : (d.update d').get? k = (d'.get? k).or (d.get? k) :=
  get?_foldl_set d'.nodup d

lemma get?_popAll {ks : List κ} : (d.popAll ks).get? k = if k ∈ ks then none else d.get? k := by
  apply Option.ext
  intro w
  by_cases hk : k ∈ ks <;> simp [popAll,get?_filter,hk]

lemma same_iff [DecidableEq ν] {d d' : Dict κ ν} : d.same d' = true ↔
    ∀ k, d.get? k = d'.get? k := by
  rw [same,List.all_eq_true]
  constructor
  · intro h k
    by_cases hk : k ∈ d.keys++d'.keys
    · simpa using h k hk
    · rw [List.mem_append,not_or] at hk
      rw [get?_eq_none.mpr hk.1,get?_eq_none.mpr hk.2]
  · intro h k _
    simpa using h k

lemma get?_mapValues {f : ν → μ} : (d.mapValues f).get? k = (d.get? k).map f := by
  simp [get?,mapValues,Function.comp_def]

lemma isEmpty_iff : d.isEmpty = true ↔ ∀ k, d.get? k = none := by
  constructor
  · intro h k
    rw [isEmpty,List.isEmpty_iff] at h
    simp [get?,h]
  · intro h
    rw [isEmpty,List.isEmpty_iff]
    apply List.eq_nil_iff_forall_not_mem.mpr
    intro e he
    have hs : d.get? e.1 = some e.2 := get?_eq_some.mpr he
    rw [h] at hs
    cases hs

/-- The dictionary of these entries; a later entry of a key wins. -/
def ofEntries (es : List (κ × ν)) : Dict κ ν := es.foldl (fun d e => d.set e.1 e.2) {}

lemma assign_of_notMem (h : k ∉ es.map Prod.fst) : assign k v es = es++[(k,v)] := by
  induction es with
  | nil => rfl
  | cons e es ih =>
    rw [List.map_cons,List.mem_cons,not_or] at h
    rw [assign,if_neg (Ne.symm h.1),ih h.2,List.cons_append]

lemma entries_foldl_set (es : List (κ × ν)) :
    ∀ d : Dict κ ν, ((d.entries++es).map Prod.fst).Nodup →
      (es.foldl (fun d e => d.set e.1 e.2) d).entries = d.entries++es := by
  induction es with
  | nil =>
    intro d _
    simp
  | cons e es ih =>
    intro d h
    have hnew : e.1 ∉ d.entries.map Prod.fst := by
      rw [List.map_append,List.map_cons,List.nodup_append] at h
      intro hmem
      exact h.2.2 e.1 hmem e.1 List.mem_cons_self rfl
    have hset : (d.set e.1 e.2).entries = d.entries++[e] := assign_of_notMem hnew
    rw [List.foldl_cons,ih]
    · rw [hset,List.append_assoc,List.singleton_append]
    · rw [hset,List.append_assoc,List.singleton_append]
      exact h

omit [DecidableEq κ] in
lemma eq_of_entries {d d' : Dict κ ν} (h : d.entries = d'.entries) : d = d' := by
  cases d
  cases d'
  subst h
  rfl

lemma ofEntries_entries (d : Dict κ ν) : ofEntries d.entries = d := by
  apply eq_of_entries
  simpa [ofEntries] using entries_foldl_set d.entries ({} : Dict κ ν) (by simpa using d.nodup)

end Dict
end Memora
