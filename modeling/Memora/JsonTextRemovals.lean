import Memora.JsonTextLaws
import Memora.Substitutions

/-! A pattern whose matches begin and end within strings can be removed from a text without making
it unreadable: brackets at the ends stay, and the strings hold fewer code points. -/
namespace Memora.JsonText
open Substitutions

variable {m m' m₁ m₂ : Mode} {c k : ℕ} {s x y : Text} {ts first : List Token}
  {b₁ b₂ : List (Bool × ℕ)}

def feed : Mode → Text → Option (List Token × Mode)
  | m, [] => some ([],m)
  | m, c::s => (step m c).bind fun (ts,m') => (feed m' s).map fun (us,m'') => (ts++us,m'')

lemma feed_cons_some (h : feed m (c::s) = some (ts,m')) :
    ∃ us m₁ vs, step m c = some (us,m₁) ∧ feed m₁ s = some (vs,m') ∧ ts = us++vs := by
  obtain ⟨⟨us,m₁⟩,hstep,h⟩ := Option.bind_eq_some_iff.mp h
  obtain ⟨⟨vs,m₂⟩,hfeed,h⟩ := Option.map_eq_some_iff.mp h
  obtain ⟨rfl,rfl⟩ := Prod.mk.inj h
  exact ⟨us,m₁,vs,hstep,hfeed,rfl⟩

variable {us vs : List Token}

lemma feed_cons (hstep : step m c = some (us,m₁)) (hfeed : feed m₁ s = some (vs,m')) :
    feed m (c::s) = some (us++vs,m') := by
  rw [feed,hstep]
  exact congrArg (Option.map _) hfeed

lemma feed_append_some (h : feed m (x++y) = some (ts,m')) :
    ∃ us m₁ vs, feed m x = some (us,m₁) ∧ feed m₁ y = some (vs,m') ∧ ts = us++vs := by
  induction x generalizing m ts with
  | nil => exact ⟨[],m,ts,rfl,h,rfl⟩
  | cons c x ih =>
    obtain ⟨us,m₁,vs,hstep,hrest,rfl⟩ := feed_cons_some h
    obtain ⟨us',m₂,vs',hx,hy,rfl⟩ := ih hrest
    exact ⟨us++us',m₂,vs',feed_cons hstep hx,hy,(List.append_assoc ..).symm⟩

lemma lex_append_some (h : lex m (x++s) = some ts) :
    ∃ us m₁ vs, feed m x = some (us,m₁) ∧ lex m₁ s = some vs ∧ ts = us++vs := by
  induction x generalizing m ts with
  | nil => exact ⟨[],m,ts,rfl,h,rfl⟩
  | cons c x ih =>
    obtain ⟨us,m₁,vs,hstep,hrest,rfl⟩ := lex_cons_some h
    obtain ⟨us',m₂,vs',hx,hs,rfl⟩ := ih hrest
    exact ⟨us++us',m₂,vs',feed_cons hstep hx,hs,(List.append_assoc ..).symm⟩

def Token.weight (k : ℕ) : Token → ℕ
  | .string s => s.count k
  | _ => 0

def weight (k : ℕ) (ts : List Token) : ℕ := (ts.map (Token.weight k)).sum

def Mode.body : Mode → List (Bool × ℕ)
  | .quoted body => body
  | .escaped body => body
  | .hex body _ => body
  | _ => []

def bodyWeight (k : ℕ) (body : List (Bool × ℕ)) : ℕ := (body.map Prod.snd).count k

lemma weight_append (us vs : List Token) : weight k (us++vs) = weight k us+weight k vs := by
  rw [weight,weight,weight,List.map_append,List.sum_append]

lemma bodyWeight_append (b₁ b₂ : List (Bool × ℕ)) :
    bodyWeight k (b₁++b₂) = bodyWeight k b₁+bodyWeight k b₂ := by
  rw [bodyWeight,bodyWeight,bodyWeight,List.map_append,List.count_append]

/-- Two halves of a character are not counted, and neither is the character. -/
theorem count_decode (hk : k < 0xd800) (body : List (Bool × ℕ)) :
    (decode body).count k = bodyWeight k body := by
  unfold bodyWeight
  fun_induction decode body with
  | case1 h l units hhalves ih =>
    simp only [isHighHalf,isLowHalf,Bool.and_eq_true,decide_eq_true_eq] at hhalves
    rw [List.count_cons_of_ne (by omega),List.map_cons,List.map_cons,
      List.count_cons_of_ne (by simp; omega),List.count_cons_of_ne (by simp; omega),ih]
  | case2 h l units hhalves ih => rw [List.count_cons,List.map_cons,List.count_cons,ih]
  | case3 unit units hno ih => rw [List.count_cons,List.map_cons,List.count_cons,ih]
  | case4 => rfl

lemma weight_string (hk : k < 0xd800) (body : List (Bool × ℕ)) :
    weight k [.string (decode body)] = bodyWeight k body := by
  simp [weight,Token.weight,count_decode hk]

lemma step_weight (hk : k < 0xd800) (h : step m c = some (ts,m')) :
    bodyWeight k m.body ≤ weight k ts+bodyWeight k m'.body := by
  cases m with
  | between | word => exact Nat.zero_le _
  | quoted body =>
    rcases step_quoted_some h with ⟨-,rfl,rfl⟩ | ⟨-,rfl,rfl⟩ | ⟨-,rfl,rfl⟩
    · rw [weight_string hk]
      exact Nat.le_add_right _ _
    · exact Nat.le_add_left _ _
    · simp [Mode.body,bodyWeight_append]
      omega
  | escaped body =>
    obtain ⟨rfl,⟨-,rfl⟩ | ⟨v,-,rfl⟩⟩ := step_escaped_some h
    · exact Nat.le_add_left _ _
    · simp [Mode.body,bodyWeight_append]
      omega
  | hex body digits =>
    obtain ⟨-,rfl,⟨d,rfl⟩ | ⟨v,rfl⟩⟩ := step_hex_some h
    · exact Nat.le_add_left _ _
    · simp [Mode.body,bodyWeight_append]
      omega

lemma feed_weight (hk : k < 0xd800) (h : feed m s = some (ts,m')) :
    bodyWeight k m.body ≤ weight k ts+bodyWeight k m'.body := by
  induction s generalizing m ts with
  | nil =>
    cases h
    exact Nat.le_add_left _ _
  | cons c s ih =>
    obtain ⟨us,m₁,vs,hstep,hrest,rfl⟩ := feed_cons_some h
    have hone := step_weight hk hstep
    have hlater := ih hrest
    rw [weight_append]
    omega

/-- Two ways of reading that differ in the beginning of the string that is being read. -/
inductive Shifted (b₁ b₂ : List (Bool × ℕ)) : Mode → Mode → Prop
  | same (m : Mode) : Shifted b₁ b₂ m m
  | quoted (z : List (Bool × ℕ)) : Shifted b₁ b₂ (.quoted (b₁++z)) (.quoted (b₂++z))
  | escaped (z : List (Bool × ℕ)) : Shifted b₁ b₂ (.escaped (b₁++z)) (.escaped (b₂++z))
  | hex (z : List (Bool × ℕ)) (digits : List ℕ) :
    Shifted b₁ b₂ (.hex (b₁++z) digits) (.hex (b₂++z) digits)

def Alike (t u : Token) : Prop := t = u ∨ t.isBracket = false ∧ u.isBracket = false

lemma Alike.refl (ts : List Token) : List.Forall₂ Alike ts ts := by
  induction ts with
  | nil => exact .nil
  | cons t ts ih => exact .cons (.inl rfl) ih

/-- The weights of what two ways of reading have completed and hold differ by the same. -/
def Balanced (ts₁ : List Token) (m₁' m₁ : Mode) (ts₂ : List Token) (m₂' m₂ : Mode) : Prop :=
  ∀ k < 0xd800, weight k ts₁+bodyWeight k m₁'.body+bodyWeight k m₂.body =
    weight k ts₂+bodyWeight k m₂'.body+bodyWeight k m₁.body

lemma step_shift (hm : Shifted b₁ b₂ m₁ m₂) (h : step m₁ c = some (ts,m')) :
    ∃ us m'', step m₂ c = some (us,m'') ∧ Shifted b₁ b₂ m' m'' ∧ List.Forall₂ Alike ts us ∧
      Balanced ts m' m₁ us m'' m₂ := by
  cases hm with
  | same => exact ⟨ts,m',h,.same m',Alike.refl ts,fun k _ => rfl⟩
  | quoted z =>
    rw [step] at h ⊢
    by_cases hquote : c = 0x22
    · rw [if_pos hquote] at h ⊢
      cases h
      refine ⟨_,_,rfl,.same _,.cons (.inr ⟨rfl,rfl⟩) .nil,?_⟩
      intro k hk
      rw [weight_string hk,weight_string hk]
      simp only [Mode.body]
      omega
    rw [if_neg hquote] at h ⊢
    by_cases hslash : c = 0x5c
    · rw [if_pos hslash] at h ⊢
      cases h
      refine ⟨_,_,rfl,.escaped z,.nil,?_⟩
      intro k _
      simp only [Mode.body]
      omega
    rw [if_neg hslash] at h ⊢
    by_cases hlow : c < 0x20
    · rw [if_pos hlow] at h
      cases h
    · rw [if_neg hlow] at h ⊢
      cases h
      refine ⟨_,_,rfl,?_,.nil,?_⟩
      · rw [List.append_assoc,List.append_assoc]
        exact .quoted _
      · intro k _
        simp only [Mode.body,bodyWeight_append]
        omega
  | escaped z =>
    rw [step] at h ⊢
    by_cases hu : c = 0x75
    · rw [if_pos hu] at h ⊢
      cases h
      refine ⟨_,_,rfl,.hex z [],.nil,?_⟩
      intro k _
      simp only [Mode.body]
      omega
    · rw [if_neg hu] at h ⊢
      obtain ⟨v,hv,h⟩ := Option.map_eq_some_iff.mp h
      obtain ⟨rfl,rfl⟩ := Prod.mk.inj h
      rw [hv]
      refine ⟨_,_,rfl,?_,.nil,?_⟩
      · rw [List.append_assoc,List.append_assoc]
        exact .quoted _
      · intro k _
        simp only [Mode.body,bodyWeight_append]
        omega
  | hex z digits =>
    rw [step] at h ⊢
    obtain ⟨d,hd,h⟩ := Option.bind_eq_some_iff.mp h
    rw [hd]
    change ∃ us m'', (if digits.length < 3 then _ else _) = some (us,m'') ∧ _
    by_cases hshort : digits.length < 3
    · rw [if_pos hshort] at h ⊢
      cases h
      refine ⟨_,_,rfl,.hex z _,.nil,?_⟩
      intro k _
      simp only [Mode.body]
      omega
    · rw [if_neg hshort] at h ⊢
      cases h
      refine ⟨_,_,rfl,?_,.nil,?_⟩
      · rw [List.append_assoc,List.append_assoc]
        exact .quoted _
      · intro k _
        simp only [Mode.body,bodyWeight_append]
        omega

lemma lex_shift (hm : Shifted b₁ b₂ m₁ m₂) (h : lex m₁ s = some ts) :
    ∃ us, lex m₂ s = some us ∧ List.Forall₂ Alike ts us ∧
      ∀ k < 0xd800, weight k ts+bodyWeight k m₂.body = weight k us+bodyWeight k m₁.body := by
  induction s generalizing m₁ m₂ ts with
  | nil =>
    cases hm with
    | same => exact ⟨ts,h,Alike.refl ts,fun k _ => rfl⟩
    | quoted | escaped | hex => cases h
  | cons c s ih =>
    obtain ⟨first,m',rest,hstep,hrest,rfl⟩ := lex_cons_some h
    obtain ⟨us,m'',hstep',hm',halike,hbalance⟩ := step_shift hm hstep
    obtain ⟨vs,hlex,halike',hweight⟩ := ih hm' hrest
    refine ⟨us++vs,?_,List.rel_append halike halike',?_⟩
    · rw [lex_cons hstep',hlex]
      rfl
    · intro k hk
      have hone := hbalance k hk
      have hlater := hweight k hk
      rw [weight_append,weight_append]
      omega

/-- Matches begin and end within strings, and one of them adds to the strings a code point that
is counted. -/
def WithinStrings (k : ℕ) (p : Pattern ℕ) : Prop :=
  ∀ b c x rest m ts m', p b (c::(x++rest)) = some rest → feed m (c::x) = some (ts,m') →
    ∃ b₁ b₂, m = .quoted b₁ ∧ m' = .quoted b₂ ∧ bodyWeight k b₁ < weight k ts+bodyWeight k b₂

/-- Tokens after a removal: no heavier, with the same brackets at the ends. -/
structure Lighter (m : Mode) (us ts : List Token) : Prop where
  weight : ∀ k < 0xd800, weight k us ≤ weight k ts
  nil : ts = [] → us = []
  first : ∀ t : Token, t.isBracket = true → m = .between → ts.head? = some t → us.head? = some t
  last : ∀ t : Token, t.isBracket = true → ts.getLast? = some t → us.getLast? = some t

lemma Lighter.refl (m : Mode) (ts : List Token) : Lighter m ts ts :=
  ⟨fun _ _ => le_rfl,fun h => h,fun _ _ _ h => h,fun _ _ h => h⟩

lemma Lighter.trans (h : Lighter m us ts) (h' : Lighter m vs us) : Lighter m vs ts :=
  ⟨fun k hk => (h'.weight k hk).trans (h.weight k hk),fun hnil => h'.nil (h.nil hnil),
    fun t ht hm hfirst => h'.first t ht hm (h.first t ht hm hfirst),
    fun t ht hlast => h'.last t ht (h.last t ht hlast)⟩

lemma getLast?_append_bracket {t : Token} (h : (us++vs).getLast? = some t) (hne : vs ≠ []) :
    vs.getLast? = some t := by
  rwa [List.getLast?_append_of_ne_nil _ hne] at h

lemma Lighter.cons (hstep : step m c = some (first,m')) (hlex : lex m' s = some ts)
    (h : Lighter m' us ts) : Lighter m (first++us) (first++ts) := by
  constructor
  · intro k hk
    have hle := h.weight k hk
    rw [weight_append,weight_append]
    omega
  · intro hnil
    obtain ⟨rfl,rfl⟩ := List.append_eq_nil_iff.mp hnil
    rw [h.nil rfl]
    rfl
  · rintro t ht rfl hfirst
    cases first with
    | cons u first => exact hfirst
    | nil =>
      by_cases hm' : m' = .between
      · exact h.first t ht hm' hfirst
      · exfalso
        cases ts with
        | nil => cases hfirst
        | cons u ts =>
          obtain rfl : u = t := by simpa using hfirst
          rw [lex_pending hm' hlex] at ht
          cases ht
  · intro t ht hlast
    by_cases hts : ts = []
    · rw [h.nil hts]
      rwa [hts] at hlast
    · have hus := h.last t ht (getLast?_append_bracket hlast hts)
      have hne : us ≠ [] := by
        rintro rfl
        cases hus
      rw [List.getLast?_append_of_ne_nil _ hne]
      exact hus

lemma getLast?_alike (h : List.Forall₂ Alike us vs) {t : Token} (ht : t.isBracket = true)
    (hlast : us.getLast? = some t) : vs.getLast? = some t := by
  induction h with
  | nil => cases hlast
  | @cons u v us vs hone hmany ih =>
    cases hmany with
    | nil =>
      obtain rfl : u = t := by simpa using hlast
      rcases hone with rfl | ⟨hno,-⟩
      · rfl
      · rw [hno] at ht
        cases ht
    | cons hnext hmany =>
      exact ih hlast

variable {p : Pattern ℕ}

/-- Removing what lies within strings leaves a text that is read, and a removal is seen in the
strings. -/
theorem lex_substitute (hp : Consuming p) (hk : k < 0xd800) (hin : WithinStrings k p)
    (b : Option ℕ) (s : Text) (m : Mode) (ts : List Token) (h : lex m s = some ts) :
    ∃ us, lex m (substituteFrom p [] b 0 s) = some us ∧ Lighter m us ts ∧
      (occursFrom p b s = true → weight k us < weight k ts) := by
  revert m ts
  apply substitute_induction (p := p) (r := []) hp (Q := fun b s s' => ∀ m ts, lex m s = some ts →
    ∃ us, lex m s' = some us ∧ Lighter m us ts ∧
    (occursFrom p b s = true → weight k us < weight k ts))
  · intro b m ts h
    exact ⟨ts,h,.refl m ts,fun hno => nomatch hno⟩
  · intro b c s s' hnone ih m ts h
    obtain ⟨first,m',rest,hstep,hrest,rfl⟩ := lex_cons_some h
    obtain ⟨us,hus,hlighter,hless⟩ := ih m' rest hrest
    refine ⟨first++us,?_,hlighter.cons hstep hrest,?_⟩
    · rw [lex_cons hstep,hus]
      rfl
    · intro hoccurs
      rw [occursFrom,hnone] at hoccurs
      have hlt := hless hoccurs
      rw [weight_append,weight_append]
      omega
  · intro b b' c x rest s' hmatch ih m ts h
    obtain ⟨first,m',vs,hfeed,hrest,rfl⟩ := lex_append_some (x := c::x) h
    obtain ⟨b₁,b₂,rfl,rfl,hgain⟩ := hin b c x rest m first m' hmatch hfeed
    obtain ⟨us,hus,hlighter,-⟩ := ih _ vs hrest
    have hshift : Shifted b₂ b₁ (.quoted b₂) (.quoted b₁) := by
      simpa using (.quoted [] : Shifted b₂ b₁ _ _)
    obtain ⟨ws,hws,halike,hbalance⟩ := lex_shift hshift hus
    have hweight : ∀ j < 0xd800, weight j ws+bodyWeight j b₂ ≤ weight j vs+bodyWeight j b₁ := by
      intro j hj
      have heq := hbalance j hj
      have hle := hlighter.weight j hj
      simp only [Mode.body] at heq
      omega
    have hvs : vs ≠ [] := by
      rintro rfl
      cases (lex_eq_nil hrest).1
    refine ⟨ws,hws,⟨?_,?_,?_,?_⟩,?_⟩
    · intro j hj
      have hle := hweight j hj
      have hfirst := feed_weight hj hfeed
      rw [weight_append]
      simp only [Mode.body] at hfirst
      omega
    · intro hnil
      exact absurd (List.append_eq_nil_iff.mp hnil).2 hvs
    · intro t _ hm
      cases hm
    · intro t ht hlast
      exact getLast?_alike halike ht (hlighter.last t ht (getLast?_append_bracket hlast hvs))
    · intro _
      have hle := hweight k hk
      rw [weight_append]
      omega

end Memora.JsonText
