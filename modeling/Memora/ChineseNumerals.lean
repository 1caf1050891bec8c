import Mathlib

/-! Chinese numerals and the pass that reads them. A numeral writes its places from the highest to
the lowest, 零 for places it skips, and the myriads with units of their own; the pass keeps a total,
a section, the last digit and the last unit. -/
namespace Memora.Numerals

/-- `_CJK_DIGITS`. -/
def cjkDigits : List (Char × ℕ) :=
  [('零',0),('一',1),('二',2),('两',2),('三',3),('四',4),('五',5),('六',6),('七',7),('八',8),('九',9)]

/-- `_CJK_UNITS`. -/
def cjkUnits : List (Char × ℕ) := [('十',10),('百',100),('千',1000),('万',10000),('亿',100000000)]

inductive Token
  | skip
  | digit (d : ℕ)
  | unit (u : ℕ)
  deriving DecidableEq

/-- What a character stands for; none where `_CJK_UNITS[char]` raises. -/
def token (c : Char) : Option Token :=
  if c = '零' then some .skip
  else match cjkDigits.lookup c with
    | some d => some (.digit d)
    | none => (cjkUnits.lookup c).map .unit

structure Reading where
  total : ℕ := 0
  section_ : ℕ := 0
  number : ℕ := 0
  lastUnit : ℕ := 0
  deriving DecidableEq

/-- One turn of the loop in `_cjk_to_int`. -/
def Reading.take (r : Reading) : Token → Reading
  | .skip => { r with lastUnit := 0 }
  | .digit d => { r with number := d }
  | .unit unit =>
    if 10000 ≤ unit then
      let section_ := if r.section_ ≠ 0 ∨ r.number ≠ 0 then (r.section_+r.number) * unit else unit
      { total := r.total+section_, section_ := 0, number := 0, lastUnit := unit }
    else { r with
      section_ := r.section_+(if r.number = 0 then 1 else r.number) * unit
      number := 0
      lastUnit := unit }

def Reading.value (r : Reading) : ℕ :=
  let number := if r.number ≠ 0 ∧ 1 < r.lastUnit then r.number * (r.lastUnit / 10) else r.number
  r.total+r.section_+number

/-- `_cjk_to_int`; none where it raises. -/
def cjkToInt (text : String) : Option ℕ :=
  (text.toList.foldlM (fun r c => (token c).map (Reading.take r)) {}).map Reading.value

def gap (skipped : Bool) : List Token := if skipped then [.skip] else []

/-- The places of `n` from 10 ^ `k` on. `above` says that a higher place is written, and `skipped`
that places below it were skipped. -/
def places (above skipped : Bool) : ℕ → ℕ → List Token
  | 0, n => if n = 0 then [] else gap skipped++[.digit n]
  | k+1, n =>
    if n < 10 ^ (k+1) then places above above k n
    else gap skipped++.digit (n / 10 ^ (k+1))::.unit (10 ^ (k+1))::places true false k (n % 10 ^ (k+1))

def myriads (above : Bool) (n : ℕ) : List Token :=
  if n < 10000 then places above above 3 n
  else places above false 3 (n / 10000)++.unit 10000::places true false 3 (n % 10000)

/-- The numeral of a positive number below 10 ^ 16. -/
def numeral (n : ℕ) : List Token :=
  if n < 100000000 then myriads false n
  else myriads false (n / 100000000)++.unit 100000000::myriads true (n % 100000000)

/-- A numeral may leave out a leading 一 before 十. -/
def Standard (n : ℕ) (ts : List Token) : Prop :=
  ts = numeral n ∨ .digit 1::ts = numeral n ∧ ts.head? = some (.unit 10)

/-- The units that may be left out at the end, behind a digit that stands right behind a unit. -/
def omitted : List (ℕ × List Token) :=
  [(100,[.unit 10]),(1000,[.unit 100]),(10000,[.unit 1000]),(100000000,[.unit 1000,.unit 10000])]

def Colloquial (n : ℕ) (ts : List Token) : Prop :=
  ∃ front d, ∃ e ∈ omitted, 0 < d ∧ ts = front++[.unit e.1,.digit d] ∧ Standard n (ts++e.2)

def Spells (text : String) (n : ℕ) : Prop :=
  ∃ ts, text.toList.mapM token = some ts ∧ (Standard n ts ∨ Colloquial n ts)

variable {n : ℕ} {ts : List Token} {r : Reading}

def read (r : Reading) (ts : List Token) : Reading := ts.foldl Reading.take r

@[simp] lemma read_append (r : Reading) (ts us : List Token) :
    read r (ts++us) = read (read r ts) us := List.foldl_append

@[simp] lemma read_cons (r : Reading) (t : Token) (ts : List Token) :
    read r (t::ts) = read (r.take t) ts := rfl

@[simp] lemma read_nil (r : Reading) : read r [] = r := rfl

lemma cjkToInt_tokens {text : String} (h : text.toList.mapM token = some ts) :
    cjkToInt text = some (read {} ts).value := by
  have hfold : ∀ (cs : List Char) (ts : List Token) (r : Reading), cs.mapM token = some ts →
      cs.foldlM (fun r c => (token c).map (Reading.take r)) r = some (read r ts) := by
    intro cs
    induction cs with
    | nil =>
      intro ts r h
      obtain rfl : [] = ts := by simpa using h
      rfl
    | cons c cs ih =>
      intro ts r h
      rw [List.mapM_cons] at h
      obtain ⟨t,ht,h⟩ := Option.bind_eq_some_iff.mp h
      obtain ⟨us,hus,h⟩ := Option.bind_eq_some_iff.mp h
      obtain rfl : t::us = ts := by simpa using h
      rw [List.foldlM_cons,ht]
      exact ih us _ hus
  rw [cjkToInt,hfold _ _ _ h]
  rfl

/-- What a reading makes of a last digit: a place of its own, or the ones. -/
structure Reads (r r' : Reading) (n : ℕ) : Prop where
  total : r'.total = r.total
  part : r'.section_+r'.number = r.section_+n
  ones : r'.number ≠ 0 → r'.lastUnit = 0 ∨ r'.lastUnit = 10

lemma read_gap (r : Reading) (skipped : Bool) :
    read r (gap skipped) = if skipped then { r with lastUnit := 0 } else r := by
  cases skipped <;> rfl

lemma reads_places (above skipped : Bool) {k : ℕ} (hk : k ≤ 3) (hn : n < 10 ^ (k+1))
    (hr : r.number = 0) (hones : (above = true ∧ (k = 0 → skipped = true)) ∨ r.lastUnit = 0 ∨ r.lastUnit = 10) :
    Reads r (read r (places above skipped k n)) n := by
  induction k generalizing n r above skipped with
  | zero =>
    unfold places
    split
    · rename_i h
      exact ⟨rfl,by simp [hr,h],fun hne => absurd hr hne⟩
    · rw [read_append,read_gap]
      cases skipped with
      | true => exact ⟨rfl,rfl,fun _ => .inl rfl⟩
      | false => exact ⟨rfl,rfl,fun _ => hones.resolve_left (by simp)⟩
  | succ k ih =>
    unfold places
    split
    · rename_i hlt
      refine ih above above (by omega) hlt hr ?_
      rcases hones with ⟨habove,-⟩ | hones
      · exact .inl ⟨habove,fun _ => habove⟩
      · exact .inr hones
    · rename_i hle
      have hpos : 0 < 10 ^ (k+1) := by positivity
      have hdigit : n / 10 ^ (k+1) ≠ 0 := (Nat.div_pos (not_lt.mp hle) hpos).ne'
      have hunit : ¬ 10000 ≤ 10 ^ (k+1) := by
        have hle : 10 ^ (k+1) ≤ 10 ^ 3 := Nat.pow_le_pow_right (by norm_num) hk
        omega
      have hrest := ih (r := { total := r.total, number := 0, lastUnit := 10 ^ (k+1), section_ := r.section_+n / 10 ^ (k+1) * 10 ^ (k+1) })
        true false (by omega) (Nat.mod_lt n hpos) rfl (by
          cases k with
          | zero => exact .inr (.inr rfl)
          | succ k => exact .inl ⟨rfl,fun h => absurd h (by omega)⟩)
      have hstate : read r (gap skipped++.digit (n / 10 ^ (k+1))::.unit (10 ^ (k+1))::places true false k
          (n % 10 ^ (k+1))) = read { total := r.total, number := 0, lastUnit := 10 ^ (k+1), section_ := r.section_+n / 10 ^ (k+1) * 10 ^ (k+1) }
            (places true false k (n % 10 ^ (k+1))) := by
        rw [read_append,read_gap]
        cases skipped <;> simp [Reading.take,hunit,hdigit]
      rw [hstate]
      refine ⟨hrest.total,?_,hrest.ones⟩
      have hsplit := Nat.div_add_mod n (10 ^ (k+1))
      rw [hrest.part,add_assoc,mul_comm,hsplit]

lemma reads_section (above skipped : Bool) (hn : n < 10000) (hr : r.number = 0)
    (hones : above = true ∨ r.lastUnit = 0) : Reads r (read r (places above skipped 3 n)) n :=
  reads_places above skipped le_rfl hn hr (hones.imp
    (fun h => ⟨h,fun h => absurd h (by decide)⟩) .inl)

/-- The value of a numeral, before the last digit is read. -/
structure ReadsTo (r' : Reading) (total section_ : ℕ) : Prop where
  total : r'.total = total
  part : r'.section_+r'.number = section_
  ones : r'.number ≠ 0 → r'.lastUnit = 0 ∨ r'.lastUnit = 10

lemma ReadsTo.value {total section_ : ℕ} (h : ReadsTo r total section_) :
    r.value = total+section_ := by
  have hpart := h.part
  have htotal := h.total
  unfold Reading.value
  dsimp only
  split
  · rename_i hlast
    rcases h.ones hlast.1 with h0 | h10
    · omega
    · rw [h10]
      omega
  · omega

lemma reads_myriads (above : Bool) (hn : n < 100000000) (hs : r.section_ = 0) (hr : r.number = 0)
    (hones : above = true ∨ r.lastUnit = 0) :
    ReadsTo (read r (myriads above n)) (r.total+n / 10000 * 10000) (n % 10000) := by
  unfold myriads
  split
  · rename_i hlt
    have h := reads_section above above hlt hr hones
    exact ⟨by rw [h.total]; omega,by rw [h.part]; omega,h.ones⟩
  · have hhigh := reads_section (n := n / 10000) above false (by omega) hr hones
    rw [read_append,read_cons]
    generalize read r (places above false 3 (n / 10000)) = m at hhigh
    obtain ⟨htotal,hpart,-⟩ := hhigh
    have hsome : m.section_ ≠ 0 ∨ m.number ≠ 0 := by omega
    have htake : m.take (.unit 10000) = { total := r.total+n / 10000 * 10000, lastUnit := 10000 } := by
      simp only [Reading.take,le_refl,if_true,if_pos hsome,htotal,hpart,hs,Nat.zero_add]
    rw [htake]
    have hlow := reads_section (n := n % 10000) (r := { total := r.total+n / 10000 * 10000, lastUnit := 10000 })
      true false (Nat.mod_lt _ (by norm_num)) rfl (.inl rfl)
    exact ⟨hlow.total,hlow.part.trans (Nat.zero_add _),hlow.ones⟩

/-- A 万 in front of 亿 is added before 亿 can multiply it. -/
def readValue (n : ℕ) : ℕ :=
  if n < 100000000 then n
  else
    let high := n / 100000000
    high / 10000 * 10000+(if high % 10000 = 0 then 1 else high % 10000) * 100000000+n % 100000000

lemma read_numeral (hn : n < 10 ^ 16) : (read {} (numeral n)).value = readValue n := by
  unfold numeral readValue
  split
  · rename_i hlt
    rw [(reads_myriads false hlt rfl rfl (.inr rfl)).value]
    dsimp only
    omega
  · have hhigh := reads_myriads (n := n / 100000000) (r := {}) false (by omega) rfl rfl (.inr rfl)
    rw [read_append,read_cons]
    generalize read {} (myriads false (n / 100000000)) = m at hhigh
    obtain ⟨htotal,hpart,-⟩ := hhigh
    have htake : m.take (.unit 100000000) =
        { total := n / 100000000 / 10000 * 10000+
            (if n / 100000000 % 10000 = 0 then 1 else n / 100000000 % 10000) * 100000000
          lastUnit := 100000000 } := by
      have hzero : (m.section_ ≠ 0 ∨ m.number ≠ 0) ↔ ¬ n / 100000000 % 10000 = 0 := by omega
      simp only [Reading.take,htotal,hpart,hzero]
      split <;> simp_all
    rw [htake]
    have hlow := reads_myriads (n := n % 100000000) (r := { total := n / 100000000 / 10000 * 10000+
            (if n / 100000000 % 10000 = 0 then 1 else n / 100000000 % 10000) * 100000000, lastUnit := 100000000 })
      true (Nat.mod_lt _ (by norm_num)) rfl rfl (.inl rfl)
    rw [hlow.value]
    dsimp only
    omega

lemma readValue_eq_iff (hn : 0 < n) : readValue n = n ↔ n < 10 ^ 12 := by
  unfold readValue
  split
  · omega
  · dsimp only
    split <;> omega

lemma read_standard (h : Standard n ts) : read {} ts = read {} (numeral n) := by
  rcases h with rfl | ⟨h,hten⟩
  · rfl
  · rw [← h]
    cases ts with
    | nil => cases hten
    | cons t ts =>
      obtain rfl : t = .unit 10 := by simpa using hten
      rfl

/-- A last digit takes the unit below the one in front of it. -/
theorem read_colloquial (h : Colloquial n ts) :
    (read {} ts).value = (read {} (numeral n)).value := by
  obtain ⟨front,d,⟨u,last⟩,he,hd,rfl,hn⟩ := h
  rw [← read_standard hn,read_append,read_append _ (front++_),read_append]
  generalize read {} front = r
  have hd : d ≠ 0 := hd.ne'
  simp only [omitted,List.mem_cons,List.not_mem_nil,or_false,Prod.mk.injEq] at he
  rcases he with ⟨rfl,rfl⟩ | ⟨rfl,rfl⟩ | ⟨rfl,rfl⟩ | ⟨rfl,rfl⟩ <;>
    simp [Reading.take,Reading.value,hd] <;> ring

/-- A numeral is read as its number exactly where it has no 万 in front of 亿. -/
theorem cjk_to_int_reads_iff (n : ℕ) (text : String) (hpos : 0 < n) (hn : n < 10 ^ 16)
    (h : Spells text n) : cjkToInt text = some n ↔ n < 10 ^ 12 := by
  obtain ⟨ts,htokens,hform⟩ := h
  have hvalue : (read {} ts).value = readValue n := by
    rcases hform with hstandard | hcolloquial
    · rw [read_standard hstandard,read_numeral hn]
    · rw [read_colloquial hcolloquial,read_numeral hn]
  rw [cjkToInt_tokens htokens,hvalue,Option.some.injEq]
  exact readValue_eq_iff hpos

theorem cjk_to_int_reads_iff_sample : cjkToInt "两千三" = some 2300 ↔ 2300 < 10 ^ 12 := by
  refine cjk_to_int_reads_iff 2300 "两千三" (by norm_num) (by norm_num) ⟨_,rfl,.inr ?_⟩
  exact ⟨[.digit 2],3,(1000,[.unit 100]),by decide,by decide,rfl,.inl (by decide)⟩

theorem nested_unit_misread : ¬ ∀ (n : ℕ) (text : String), 0 < n → n < 10 ^ 16 → Spells text n →
    cjkToInt text = some n := by
  intro h
  have hspells : Spells "一万亿" (10 ^ 12) := ⟨_,rfl,.inl (.inl (by decide +kernel))⟩
  exact absurd (h _ _ (by norm_num) (by norm_num) hspells) (by decide +kernel)

end Memora.Numerals
