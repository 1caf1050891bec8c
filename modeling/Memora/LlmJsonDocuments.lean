import Memora.JsonTextRemovals
import Memora.LlmJsonStrict

/-! The patterns of the thinking tags and the delete character lie within the strings of a document.
What they remove is missing from the strings; without them the document is read as it stands. -/
namespace Memora.LlmJson
open JsonText Substitutions

variable {s x y z rest : Text} {ts us : List Token} {v : Value} {b : Bool} {c k l : ℕ}
  {m m' : Mode} {t : ThinkingPattern}

lemma same_variants (ht : t ∈ thinkingPatterns) (h : t.same l c = true) : c ∈ caseVariants l := by
  have hexact : exactly l c = true → c ∈ caseVariants l := by
    intro h
    obtain rfl : l = c := of_decide_eq_true h
    unfold caseVariants
    split <;> simp
  have hcase : ignoringCase l c = true → c ∈ caseVariants l := fun h => by
    simpa [ignoringCase] using h
  simp only [thinkingPatterns,List.mem_cons,List.not_mem_nil,or_false] at ht
  rcases ht with rfl | rfl | rfl | rfl | rfl | rfl | rfl | rfl
  · exact hcase h
  · exact hexact h
  · exact hcase h
  · exact hcase h
  · exact hcase h
  · exact hcase h
  · exact hcase h
  · exact hexact h

def opensInString : Text → Bool
  | k::l::l'::rest =>
    caseVariants k = [k] && k < 0xd800 &&
      (stringOnly k || (k = 0x5b && l = 0x74 && l' = 0x68 && rest.contains 0x5d))
  | _ => false

def quotable (c : ℕ) : Bool := 0x20 ≤ c && c ≠ 0x22 && c ≠ 0x5c

/-- A closing whose first or second code point stands only in a string. -/
def closesInString : Text → Bool
  | k::l::rest =>
    caseVariants k = [k] && caseVariants l = [l] && l = 0x2f && (stringOnly k || k = 0x5b) &&
      rest.all fun l => (caseVariants l).all quotable
  | _ => false

lemma thinkingPatterns_in_strings :
    ∀ t ∈ thinkingPatterns, opensInString t.opening = true ∧ closesInString t.closing = true := by
  decide

lemma feed_quotable {body : List (Bool × ℕ)} (hz : ∀ c ∈ z, quotable c = true)
    (h : feed (.quoted body) z = some (ts,m')) : ∃ body', m' = .quoted body' := by
  induction z generalizing body ts with
  | nil => exact ⟨body,(Prod.mk.inj (Option.some.inj h)).2.symm⟩
  | cons c z ih =>
    obtain ⟨us,m₁,vs,hstep,hrest,rfl⟩ := feed_cons_some h
    have hc := hz c (List.mem_cons_self ..)
    simp only [quotable,Bool.and_eq_true,decide_eq_true_eq] at hc
    rcases step_quoted_some hstep with ⟨h,-⟩ | ⟨h,-⟩ | ⟨-,-,rfl⟩
    · exact absurd h hc.1.2
    · exact absurd h hc.2
    · exact ih (fun d hd => hz d (List.mem_cons_of_mem _ hd)) hrest

theorem step_bracket (h : step m 0x5b = some (ts,m')) : m' = .between ∨ ∃ body,
    m = .quoted body ∧ ts = [] ∧
      m' = .quoted (body++[(false,0x5b)]) := by
  cases m with
  | between => exact .inl (Prod.mk.inj (Option.some.inj h)).2.symm
  | word letters =>
    rcases step_word_some h with ⟨hword,-⟩ | ⟨t,after,-,hafter,-⟩
    · cases hword
    · exact .inl (Prod.mk.inj (Option.some.inj hafter)).2.symm
  | quoted body =>
    rcases step_quoted_some h with ⟨h,-⟩ | ⟨h,-⟩ | ⟨-,hts,hm⟩
    · cases h
    · cases h
    · exact .inr ⟨body,rfl,hts,hm⟩
  | escaped | hex => cases h

lemma exists_of_mem_right {R : ℕ → ℕ → Prop} {ls : Text} (h : List.Forall₂ R ls z)
    (hc : c ∈ z) : ∃ l ∈ ls, R l c := by
  induction h with
  | nil => cases hc
  | @cons l d ls z hone _ ih =>
    rcases List.mem_cons.mp hc with rfl | hc
    · exact ⟨l,List.mem_cons_self ..,hone⟩
    · obtain ⟨l',hl',hR⟩ := ih hc
      exact ⟨l',List.mem_cons_of_mem _ hl',hR⟩

lemma closing_in_string (ht : t ∈ thinkingPatterns)
    (hz : List.Forall₂ (fun l c => t.same l c = true) t.closing z)
    (h : feed m z = some (ts,m')) : ∃ body, m' = .quoted body := by
  have hcloses := (thinkingPatterns_in_strings t ht).2
  generalize t.closing = closing at hz hcloses
  cases hz with
  | nil => cases hcloses
  | @cons k c₁ ls z hk hz =>
    cases hz with
    | nil => cases hcloses
    | @cons l c₂ ls z hl hz =>
      simp only [closesInString,Bool.and_eq_true,Bool.or_eq_true,decide_eq_true_eq,
        List.all_eq_true] at hcloses
      obtain ⟨⟨⟨⟨hk₁,hl₁⟩,rfl⟩,hstart⟩,hplain⟩ := hcloses
      have hc₁ := same_variants ht hk
      have hc₂ := same_variants ht hl
      rw [hk₁,List.mem_singleton] at hc₁
      rw [hl₁,List.mem_singleton] at hc₂
      subst hc₁ hc₂
      have hquotable : ∀ c ∈ 0x2f::z, quotable c = true := by
        intro c hc
        rcases List.mem_cons.mp hc with rfl | hc
        · rfl
        · obtain ⟨l,hl,hsame⟩ := exists_of_mem_right hz hc
          exact hplain l hl c (same_variants ht hsame)
      obtain ⟨us,m₁,vs,hstep,hrest,rfl⟩ := feed_cons_some h
      rcases hstart with honly | rfl
      · obtain ⟨-,body,-,-,rfl⟩ := step_stringOnly honly hstep
        exact feed_quotable hquotable hrest
      · rcases step_bracket hstep with rfl | ⟨body,-,-,rfl⟩
        · cases hrest
        · exact feed_quotable hquotable hrest

lemma wordToken_tag {d e : ℕ} (hd : d = 0x74 ∨ d = 0x54) (he : e = 0x68 ∨ e = 0x48)
    (letters : Text) : wordToken (d::e::letters) = none := by
  rcases hd with rfl | rfl <;> rcases he with rfl | rfl <;>
    simp [wordToken,constants,notFinite,codes,isNumber,isDigit,List.lookup]

lemma feed_tag {letters : Text} (hw : ∀ more, wordToken (letters++more) = none)
    (h : feed (.word letters) x = some (ts,m')) : 0x5d ∉ x := by
  induction x generalizing letters ts with
  | nil => simp
  | cons c x ih =>
    obtain ⟨us,m₁,vs,hstep,hrest,rfl⟩ := feed_cons_some h
    rcases step_word_some hstep with ⟨hword,-,rfl⟩ | ⟨u,after,hu,-⟩
    · have hlater := ih (fun more => by rw [List.append_assoc]; exact hw _) hrest
      have hc : 0x5d ≠ c := by
        rintro rfl
        cases hword
      simp [hc,hlater]
    · have hnone := hw []
      rw [List.append_nil,hu] at hnone
      cases hnone

lemma feed_between_tag {d e : ℕ} (hd : d = 0x74 ∨ d = 0x54) (he : e = 0x68 ∨ e = 0x48)
    (hx : 0x5d ∈ x) (h : feed .between (d::e::x) = some (ts,m')) : False := by
  have hfirst : step .between d = some ([],.word [d]) := by rcases hd with rfl | rfl <;> rfl
  have hsecond : step (.word [d]) e = some ([],.word [d,e]) := by
    rcases he with rfl | rfl <;> rfl
  obtain ⟨us,m₁,vs,hstep,hrest,-⟩ := feed_cons_some h
  obtain ⟨-,rfl⟩ := Prod.mk.inj (Option.some.inj (hfirst.symm.trans hstep))
  obtain ⟨us,m₂,vs,hstep,hrest,-⟩ := feed_cons_some hrest
  obtain ⟨-,rfl⟩ := Prod.mk.inj (Option.some.inj (hsecond.symm.trans hstep))
  exact feed_tag (wordToken_tag hd he) hrest hx

lemma opening_in_string (ht : t ∈ thinkingPatterns) {o : Text}
    (ho : List.Forall₂ (fun l c => t.same l c = true) t.opening o) (h : feed m o = some (ts,m')) :
    ∃ body, m = .quoted body ∧ t.opening.headD 0 < 0xd800 ∧ bodyWeight (t.opening.headD 0) body <
        weight (t.opening.headD 0) ts+bodyWeight (t.opening.headD 0) m'.body := by
  have hopens := (thinkingPatterns_in_strings t ht).1
  generalize t.opening = opening at ho hopens
  cases ho with
  | nil => cases hopens
  | @cons k c₁ ls o hk ho =>
    cases ho with
    | nil => cases hopens
    | @cons l c₂ ls o hl ho =>
      cases ho with
      | nil => cases hopens
      | @cons l' c₃ ls o hl' ho =>
        simp only [opensInString,Bool.and_eq_true,Bool.or_eq_true,decide_eq_true_eq] at hopens
        obtain ⟨⟨hk₁,hsmall⟩,hstart⟩ := hopens
        have hc₁ := same_variants ht hk
        rw [hk₁,List.mem_singleton] at hc₁
        subst hc₁
        change ∃ body, _ ∧ c₁ < 0xd800 ∧ bodyWeight c₁ body < weight c₁ ts+bodyWeight c₁ m'.body
        obtain ⟨us,m₁,vs,hstep,hrest,rfl⟩ := feed_cons_some h
        have hquoted : ∃ body, m = .quoted body ∧ us = [] ∧ m₁ = .quoted (body++[(false,c₁)]) := by
          rcases hstart with honly | ⟨⟨⟨rfl,rfl⟩,rfl⟩,hclose⟩
          · exact (step_stringOnly honly hstep).2
          · rcases step_bracket hstep with rfl | hquoted
            · exfalso
              have hd : c₂ = 0x74 ∨ c₂ = 0x54 := by
                simpa [caseVariants] using same_variants ht hl
              have he : c₃ = 0x68 ∨ c₃ = 0x48 := by
                simpa [caseVariants] using same_variants ht hl'
              have hin : 0x5d ∈ o := by
                obtain ⟨c,hc,hsame⟩ := exists_of_mem_right ho.flip (List.contains_iff_mem.mp hclose)
                have hvariant := same_variants ht hsame
                obtain rfl : c = 0x5d := by simpa [caseVariants] using hvariant
                exact hc
              exact feed_between_tag hd he hin hrest
            · exact hquoted
        obtain ⟨body,rfl,rfl,rfl⟩ := hquoted
        refine ⟨body,rfl,hsmall,?_⟩
        have hlater : bodyWeight c₁ (body++[(false,c₁)]) ≤
            weight c₁ vs+bodyWeight c₁ m'.body := feed_weight hsmall hrest
        rw [bodyWeight_append] at hlater
        have hone : bodyWeight c₁ [(false,c₁)] = 1 := by simp [bodyWeight]
        rw [List.nil_append]
        omega

def ThinkingPattern.key (t : ThinkingPattern) : ℕ := t.opening.headD 0

lemma thinking_within (ht : t ∈ thinkingPatterns) :
    Consuming t.pattern ∧ t.key < 0xd800 ∧ WithinStrings t.key t.pattern := by
  have hopens := (thinkingPatterns_in_strings t ht).1
  have hne : t.opening ≠ [] := by
    intro hnil
    rw [hnil] at hopens
    cases hopens
  have hkey : t.key < 0xd800 := by
    unfold ThinkingPattern.key
    generalize t.opening = opening at hopens
    match opening, hopens with
    | k::l::l'::rest, hopens =>
      simp only [opensInString,Bool.and_eq_true,decide_eq_true_eq] at hopens
      exact hopens.1.2
  refine ⟨delimited_consuming hne,hkey,?_⟩
  intro b c x rest m ts m' hmatch hfeed
  obtain ⟨o,y,z,heq,ho,hz⟩ := delimited_some hmatch
  have hx : c::x = o++(y++z) := by
    have hsides : c::x++rest = o++(y++z)++rest := by simpa using heq
    exact List.append_cancel_right hsides
  rw [hx] at hfeed
  obtain ⟨us,m₁,vs,hfirst,hrest,rfl⟩ := feed_append_some hfeed
  obtain ⟨us',m₂,vs',hmiddle,hlast,rfl⟩ := feed_append_some hrest
  obtain ⟨b₁,rfl,-,hgain⟩ := opening_in_string ht ho hfirst
  obtain ⟨b₂,rfl⟩ := closing_in_string ht hz hlast
  refine ⟨b₁,b₂,rfl,rfl,?_⟩
  have hone := feed_weight hkey hmiddle
  have htwo := feed_weight hkey hlast
  change bodyWeight t.key b₁ < weight t.key us+bodyWeight t.key m₁.body at hgain
  change bodyWeight t.key m₂.body ≤ weight t.key vs'+bodyWeight t.key b₂ at htwo
  rw [weight_append,weight_append]
  omega

def noThinking (s : Text) : Bool := thinkingPatterns.all fun t => !occurs t.pattern s

lemma foldl_thinking (l : List ThinkingPattern) (hl : ∀ t ∈ l, t ∈ thinkingPatterns)
    (h : tokens s = some ts) :
    ∃ us, tokens (l.foldl (fun s t => substitute t.pattern [] s) s) = some us ∧
    Lighter .between us ts ∧
      ((∃ t ∈ l, occurs t.pattern s = true) → ∃ k < 0xd800, weight k us < weight k ts) := by
  induction l generalizing s ts with
  | nil => exact ⟨ts,h,.refl _ ts,fun ⟨t,ht,_⟩ => nomatch ht⟩
  | cons t l ih =>
    obtain ⟨hconsuming,hkey,hwithin⟩ := thinking_within (hl t (List.mem_cons_self ..))
    obtain ⟨us,hus,hlighter,hless⟩ := lex_substitute hconsuming hkey hwithin none s _ ts h
    obtain ⟨vs,hvs,hlighter',hless'⟩ := ih (fun u hu => hl u (List.mem_cons_of_mem _ hu)) hus
    refine ⟨vs,hvs,hlighter.trans hlighter',?_⟩
    rintro ⟨u,hu,hoccurs⟩
    by_cases hfirst : occurs t.pattern s = true
    · exact ⟨t.key,hkey,lt_of_le_of_lt (hlighter'.weight _ hkey) (hless hfirst)⟩
    · -- the first pattern leaves the text as it is, so the later one still occurs
      have hsame : substitute t.pattern [] s = s :=
        substituteFrom_of_not_occurs (Bool.eq_false_of_not_eq_true hfirst)
      have hlater : ∃ u ∈ l, occurs u.pattern s = true := by
        rcases List.mem_cons.mp hu with rfl | hu
        · exact absurd hoccurs hfirst
        · exact ⟨u,hu,hoccurs⟩
      have hsame' : substituteFrom t.pattern [] none 0 s = s := hsame
      rw [hsame'] at hless'
      obtain ⟨k,hk,hlt⟩ := hless' hlater
      exact ⟨k,hk,lt_of_lt_of_le hlt (hlighter.weight k hk)⟩

lemma removeThinking_of_noThinking (h : noThinking s = true) : removeThinking s = s := by
  have hall : ∀ t ∈ thinkingPatterns, occurs t.pattern s = false := by
    simpa [noThinking] using h
  unfold removeThinking
  generalize thinkingPatterns = l at hall
  induction l with
  | nil => rfl
  | cons t l ih =>
    have hsame : substitute t.pattern [] s = s := substituteFrom_of_not_occurs (hall t (List.mem_cons_self ..))
    rw [List.foldl_cons,hsame]
    exact ih fun u hu => hall u (List.mem_cons_of_mem _ hu)

def deletePattern : Pattern ℕ := fun _ s =>
  match s with
  | c::rest => if c = 0x7f then some rest else none
  | [] => none

lemma deletePattern_some {b : Option ℕ} (h : deletePattern b (c::s) = some rest) :
    c = 0x7f ∧ rest = s := by
  dsimp only [deletePattern] at h
  by_cases hc : c = 0x7f
  · rw [if_pos hc] at h
    exact ⟨hc,(Option.some.inj h).symm⟩
  · rw [if_neg hc] at h
    cases h

lemma delete_consuming : Consuming deletePattern := by
  intro b c s rest h
  obtain ⟨-,rfl⟩ := deletePattern_some h
  exact List.suffix_rfl

lemma delete_within : WithinStrings 0x7f deletePattern := by
  intro b c x rest m ts m' hmatch hfeed
  obtain ⟨rfl,hrest⟩ := deletePattern_some hmatch
  obtain rfl : x = [] := by
    have hlen := congrArg List.length hrest
    rw [List.length_append] at hlen
    exact List.eq_nil_of_length_eq_zero (by omega)
  obtain ⟨us,m₁,vs,hstep,hnil,rfl⟩ := feed_cons_some hfeed
  cases hnil
  obtain ⟨-,body,rfl,rfl,rfl⟩ := step_stringOnly (c := 0x7f) rfl hstep
  refine ⟨body,_,rfl,rfl,?_⟩
  have hone : bodyWeight 0x7f [(false,0x7f)] = 1 := rfl
  rw [bodyWeight_append]
  omega

lemma substitute_delete (b : Option ℕ) (s : Text) :
    substituteFrom deletePattern [] b 0 s = s.filter (· ≠ 0x7f) := by
  induction s generalizing b with
  | nil => rfl
  | cons c s ih =>
    by_cases hc : c = 0x7f
    · subst hc
      change []++substituteFrom deletePattern [] (some 0x7f) (s.length - s.length) s = _
      rw [Nat.sub_self,ih]
      simp
    · have hnone : deletePattern b (c::s) = none := if_neg hc
      rw [substituteFrom,hnone]
      rw [ih]
      simp [hc]

lemma occurs_delete (b : Option ℕ) (s : Text) : occursFrom deletePattern b s = true ↔ 0x7f ∈ s := by
  induction s generalizing b with
  | nil => simp [occursFrom]
  | cons c s ih =>
    rw [occursFrom,Bool.or_eq_true,ih,List.mem_cons]
    by_cases hc : c = 0x7f
    · simp [deletePattern,hc]
    · simp [deletePattern,hc,Ne.symm hc]

def KeepsDocument (word : ℕ → Bool) (s : Text) (v : Value) : Prop :=
  safeParseLlmJson word s = some v ∧ tokens (clean word s) = tokens s

lemma Boxed.of_lighter (h : Boxed b ts) (hlighter : Lighter .between us ts) : Boxed b us := by
  have hopen : (opening b).isBracket = true := by cases b <;> rfl
  have hclose : (closing b).isBracket = true := by cases b <;> rfl
  exact ⟨hlighter.first _ hopen rfl h.first,hlighter.last _ hclose h.last⟩

lemma cleanControlCharacters_filter (h : tokens s = some ts) :
    cleanControlCharacters s = s.filter (· ≠ 0x7f) := by
  apply List.filter_congr
  intro c hc
  by_cases hdel : c = 0x7f
  · subst hdel
    rfl
  · rcases lex_control h hc with hblank | hlow
    · rcases isBlank_cases hblank with rfl | rfl | rfl | rfl <;> rfl
    · have hno : isControl c = false := by
        simp only [isControl,Bool.or_eq_false_iff,Bool.and_eq_false_iff, decide_eq_false_iff_not]
        omega
      simp [hno,hdel]

lemma delete_tight (h : Tight b s) (hread : tokens s = some ts) :
    ∃ us, Tight b (cleanControlCharacters s) ∧ tokens (cleanControlCharacters s) = some us ∧
      Lighter .between us ts ∧ (0x7f ∈ s → weight 0x7f us < weight 0x7f ts) := by
  rw [cleanControlCharacters_filter hread]
  obtain ⟨us,hus,hlighter,hless⟩ := lex_substitute delete_consuming (by decide) delete_within none s
    _ ts hread
  rw [substitute_delete] at hus
  rw [occurs_delete] at hless
  refine ⟨us,⟨?_,?_,⟨us,hus⟩⟩,hus,hlighter,hless⟩
  · obtain ⟨r,rfl⟩ := h.first
    refine ⟨r.filter (· ≠ 0x7f),?_⟩
    cases b <;> rfl
  · obtain ⟨r,rfl⟩ := h.last
    refine ⟨r.filter (· ≠ 0x7f),?_⟩
    rw [List.filter_append]
    cases b <;> rfl

/-- What the first round parses, in terms of what the removal of the tags leaves. -/
theorem clean_eq (word : ℕ → Bool) (hread : tokens (removeThinking s) = some ts)
    (hbox : Boxed b ts) (hne : s ≠ []) :
    ∃ r us, clean word s = cleanControlCharacters r ∧ tokens r = some ts ∧
      Tight b (clean word s) ∧ tokens (clean word s) = some us ∧ Lighter .between us ts ∧
      (∀ c, isSpace c = false → (c ∈ r ↔ c ∈ removeThinking s)) ∧
      (0x7f ∈ r → weight 0x7f us < weight 0x7f ts) := by
  have hread' := (tokens_blankLines (removeThinking s)).trans hread
  obtain ⟨htight,htokens,hmem⟩ := strip_tight hread' hbox
  obtain ⟨us,htight',htokens',hlighter,hless⟩ := delete_tight htight htokens
  have hclean : clean word s = cleanControlCharacters
      (strip (substitute blankLines [newline,newline] (removeThinking s))) := by
    rw [clean,removeThinkingContent,if_neg hne,cleanMarkdownBlocks_tight htight,
      extractJsonContent_tight htight']
  refine ⟨_,us,hclean,htokens,hclean ▸ htight',hclean ▸ htokens',hlighter,?_,hless⟩
  intro c hc
  have hnot : c ≠ newline := by
    rintro rfl
    cases hc
  rw [hmem c hc,mem_blankLines hnot]

/-- A valid object or array is returned as strict parsing reads it, and not changed on the way,
exactly when no thinking tag matches in it and it has no delete character. -/
theorem safeParse_strict_iff (word : ℕ → Bool) (s : Text) (v : Value) (hload : loads s = some v)
    (hv : isContainer v = true) : KeepsDocument word s v ↔ noThinking s = true ∧ 0x7f ∉ s := by
  obtain ⟨ts,hread,hparse⟩ := Option.bind_eq_some_iff.mp hload
  obtain ⟨b,hb⟩ : ∃ b, v.isObject = some b := by
    cases v with
    | array items => exact ⟨false,rfl⟩
    | object members => exact ⟨true,rfl⟩
    | _ => cases hv
  have hbox := boxed_of_parse hparse hb
  have hne : s ≠ [] := by
    rintro rfl
    obtain rfl : [] = ts := Option.some.inj hread
    cases hbox.first
  obtain ⟨us,hus,hlighter,hless⟩ := foldl_thinking thinkingPatterns (fun _ h => h) hread
  obtain ⟨r,vs,hclean,hr,htight,hvs,hlighter',hmem,hdelete⟩ :=
    clean_eq word hus (hbox.of_lighter hlighter) hne
  constructor
  · rintro ⟨-,hsame⟩
    obtain rfl : vs = ts := Option.some.inj (hvs.symm.trans (hsame.trans hread))
    have hno : noThinking s = true := by
      by_contra hmatch
      have hsome : ∃ t ∈ thinkingPatterns, occurs t.pattern s = true := by
        simpa [noThinking] using hmatch
      obtain ⟨k,hk,hlt⟩ := hless hsome
      have hle := hlighter'.weight k hk
      omega
    refine ⟨hno,fun hdel => ?_⟩
    rw [removeThinking_of_noThinking hno] at hmem
    have hlt := hdelete ((hmem 0x7f rfl).mpr hdel)
    have hle := hlighter.weight 0x7f (by decide)
    omega
  · rintro ⟨hno,hdel⟩
    have hkept := removeThinking_of_noThinking hno
    rw [hkept] at hmem
    obtain rfl : us = ts := by
      have heq : tokens (removeThinking s) = some ts := by rw [hkept,hread]
      exact Option.some.inj (hus.symm.trans heq)
    have hdel' : 0x7f ∉ r := fun h => hdel ((hmem 0x7f rfl).mp h)
    have hsame : tokens (clean word s) = tokens s := by
      have hfilter : r.filter (· ≠ 0x7f) = r := by
        apply List.filter_eq_self.mpr
        intro c hc
        have hnot : c ≠ 0x7f := by
          rintro rfl
          exact hdel' hc
        simp [hnot]
      rw [hclean,cleanControlCharacters_filter hr,hfilter,hr,hread]
    refine ⟨?_,hsame⟩
    have hstrip : strip s ≠ [] := by
      obtain ⟨⟨⟨r',hr'⟩,-,-⟩,-,-⟩ := strip_tight hread hbox
      rw [hr']
      simp
    have hcleaned : clean word s ≠ [] := by
      obtain ⟨r',hr'⟩ := htight.first
      rw [hr']
      simp
    have hround : round (clean word s) = some v := by
      have hloads : loads (clean word s) = some v := by rw [loads,hsame]; exact hload
      rw [round,hloads]
      exact if_pos hv
    rw [safeParseLlmJson,if_neg hstrip]
    rw [if_neg hcleaned,hround]
    rfl

def asciiWord (c : ℕ) : Bool := isLetter c || isDigit c || c = 0x5f

theorem safeParse_strict_sample : KeepsDocument asciiWord (codes "[\"<think>\", 1 ]")
      (.array [.string (codes "<think>"),.scalar (.number (codes "1"))]) :=
  (safeParse_strict_iff asciiWord (codes "[\"<think>\", 1 ]") _ rfl rfl).mpr
    ⟨by decide +kernel,by decide +kernel⟩

/-- A tag within a string is removed with what it encloses. -/
theorem tag_in_string_removed :
    ∃ v, loads (codes "[\"<think>x</think>\"]") = some v ∧ isContainer v = true ∧
      safeParseLlmJson asciiWord (codes "[\"<think>x</think>\"]") =
        some (.array [.string []]) ∧ some (.array [.string []]) ≠ some v := by
  refine ⟨.array [.string (codes "<think>x</think>")],rfl,rfl,rfl,?_⟩
  intro h
  obtain ⟨hstring,-⟩ := List.cons.inj (Value.array.inj (Option.some.inj h))
  exact absurd (Value.string.inj hstring) (by decide)

end Memora.LlmJson
