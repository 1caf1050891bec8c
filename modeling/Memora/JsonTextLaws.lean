import Memora.JsonText

/-! White space between tokens does not count, and what a text that is read can hold where. The
shape of the tokens of a container follows from the machine. -/
namespace Memora.JsonText

variable {m m' : Mode} {c : ℕ} {s x y w : Text} {ts : List Token} {σ σ' : State} {v : Value}

lemma lex_cons (h : step m c = some (ts,m')) : lex m (c::s) = (lex m' s).map fun rest =>
  ts++rest := by
  rw [lex,h]
  rfl

lemma lex_cons_some (h : lex m (c::s) = some ts) :
    ∃ first m' rest, step m c = some (first,m') ∧ lex m' s = some rest ∧ ts = first++rest := by
  obtain ⟨⟨first,m'⟩,hstep,h⟩ := Option.bind_eq_some_iff.mp h
  obtain ⟨rest,hrest,rfl⟩ := Option.map_eq_some_iff.mp h
  exact ⟨first,m',rest,hstep,hrest,rfl⟩

lemma stepBetween_some (h : stepBetween c = some (ts,m')) :
    (isBlank c = true ∧ ts = [] ∧ m' = .between) ∨ (c = 0x22 ∧ ts = [] ∧ m' = .quoted []) ∨
      (∃ t, punctuation c = some t ∧ ts = [t] ∧ m' = .between) ∨
      (isWord c = true ∧ ts = [] ∧ m' = .word [c]) := by
  unfold stepBetween at h
  by_cases hblank : isBlank c = true
  · rw [if_pos hblank] at h
    cases h
    exact .inl ⟨hblank,rfl,rfl⟩
  rw [if_neg hblank] at h
  by_cases hquote : c = 0x22
  · rw [if_pos hquote] at h
    cases h
    exact .inr (.inl ⟨hquote,rfl,rfl⟩)
  rw [if_neg hquote] at h
  cases hp : punctuation c with
  | some t =>
    rw [hp] at h
    cases h
    exact .inr (.inr (.inl ⟨t,rfl,rfl,rfl⟩))
  | none =>
    rw [hp] at h
    by_cases hword : isWord c = true
    · rw [if_pos hword] at h
      cases h
      exact .inr (.inr (.inr ⟨hword,rfl,rfl⟩))
    · rw [if_neg hword] at h
      cases h

lemma step_word_some {letters : Text} (h : step (.word letters) c = some (ts,m')) :
    (isWord c = true ∧ ts = [] ∧ m' = .word (letters++[c])) ∨
      ∃ t after, wordToken letters = some t ∧ stepBetween c = some (after,m') ∧ ts = t::after := by
  rw [step] at h
  by_cases hword : isWord c = true
  · rw [if_pos hword] at h
    cases h
    exact .inl ⟨hword,rfl,rfl⟩
  · rw [if_neg hword] at h
    obtain ⟨t,ht,h⟩ := Option.bind_eq_some_iff.mp h
    obtain ⟨⟨after,m₁⟩,hafter,h⟩ := Option.bind_eq_some_iff.mp h
    cases h
    exact .inr ⟨t,after,ht,hafter,rfl⟩

variable {body : List (Bool × ℕ)}

lemma step_quoted_some (h : step (.quoted body) c = some (ts,m')) :
    (c = 0x22 ∧ ts = [.string (decode body)] ∧ m' = .between) ∨
    (c = 0x5c ∧ ts = [] ∧ m' = .escaped body) ∨
      (0x20 ≤ c ∧ ts = [] ∧ m' = .quoted (body++[(false,c)])) := by
  rw [step] at h
  by_cases hquote : c = 0x22
  · rw [if_pos hquote] at h
    cases h
    exact .inl ⟨hquote,rfl,rfl⟩
  rw [if_neg hquote] at h
  by_cases hslash : c = 0x5c
  · rw [if_pos hslash] at h
    cases h
    exact .inr (.inl ⟨hslash,rfl,rfl⟩)
  rw [if_neg hslash] at h
  by_cases hlow : c < 0x20
  · rw [if_pos hlow] at h
    cases h
  · rw [if_neg hlow] at h
    cases h
    exact .inr (.inr ⟨by omega,rfl,rfl⟩)

lemma step_escaped_some (h : step (.escaped body) c = some (ts,m')) :
    ts = [] ∧ ((c = 0x75 ∧ m' = .hex body []) ∨
      ∃ v, escapeValue c = some v ∧ m' = .quoted (body++[(false,v)])) := by
  rw [step] at h
  by_cases hu : c = 0x75
  · rw [if_pos hu] at h
    cases h
    exact ⟨rfl,.inl ⟨hu,rfl⟩⟩
  · rw [if_neg hu] at h
    obtain ⟨v,hv,h⟩ := Option.map_eq_some_iff.mp h
    obtain ⟨rfl,rfl⟩ := Prod.mk.inj h
    exact ⟨rfl,.inr ⟨v,hv,rfl⟩⟩

lemma step_hex_some {digits : List ℕ} (h : step (.hex body digits) c = some (ts,m')) :
    (hexValue c).isSome = true ∧ ts = [] ∧
      ((∃ d, m' = .hex body (digits++[d])) ∨ ∃ v, m' = .quoted (body++[(true,v)])) := by
  obtain ⟨d,hd,h⟩ := Option.bind_eq_some_iff.mp h
  by_cases hshort : digits.length < 3
  · rw [if_pos hshort] at h
    cases h
    exact ⟨by rw [hd]; rfl,rfl,.inl ⟨d,rfl⟩⟩
  · rw [if_neg hshort] at h
    cases h
    exact ⟨by rw [hd]; rfl,rfl,.inr ⟨_,rfl⟩⟩

/-- Outside of strings a code point is white space, a quote, punctuation or part of a word. -/
def outside (c : ℕ) : Bool := isBlank c || c = 0x22 || (punctuation c).isSome || isWord c

lemma stepBetween_outside (h : stepBetween c = some (ts,m')) : outside c = true := by
  rcases stepBetween_some h with ⟨h,-⟩ | ⟨h,-⟩ | ⟨t,h,-⟩ | ⟨h,-⟩ <;> simp [outside,h]

lemma step_some (h : step m c = some (ts,m')) :
    outside c = true ∨ (escapeValue c).isSome = true ∨ (hexValue c).isSome = true ∨ c = 0x75 ∨
    c = 0x5c ∨
      (0x20 ≤ c ∧ ∃ body, m = .quoted body ∧ ts = [] ∧ m' = .quoted (body++[(false,c)])) := by
  cases m with
  | between => exact .inl (stepBetween_outside h)
  | word letters =>
    rcases step_word_some h with ⟨hword,-⟩ | ⟨t,after,-,hafter,-⟩
    · exact .inl (by simp [outside,hword])
    · exact .inl (stepBetween_outside hafter)
  | quoted body =>
    rcases step_quoted_some h with ⟨rfl,-⟩ | ⟨h,-⟩ | ⟨hlow,hts,hm⟩
    · exact .inl rfl
    · exact .inr (.inr (.inr (.inr (.inl h))))
    · exact .inr (.inr (.inr (.inr (.inr ⟨hlow,body,rfl,hts,hm⟩))))
  | escaped body =>
    obtain ⟨-,⟨h,-⟩ | ⟨v,hv,-⟩⟩ := step_escaped_some h
    · exact .inr (.inr (.inr (.inl h)))
    · exact .inr (.inl (by rw [hv]; rfl))
  | hex body digits => exact .inr (.inr (.inl (step_hex_some h).1))

/-- A code point that stands for itself in a string and cannot stand elsewhere. -/
def stringOnly (c : ℕ) : Bool :=
  !outside c && (escapeValue c).isNone && (hexValue c).isNone && c ≠ 0x75 && c ≠ 0x5c

lemma step_stringOnly (hc : stringOnly c = true) (h : step m c = some (ts,m')) :
    0x20 ≤ c ∧ ∃ body, m = .quoted body ∧ ts = [] ∧ m' = .quoted (body++[(false,c)]) := by
  simp only [stringOnly,Bool.and_eq_true,Bool.not_eq_true',Option.isNone_iff_eq_none,
    decide_eq_true_eq] at hc
  obtain ⟨⟨⟨⟨houtside,hescape⟩,hhex⟩,hu⟩,hslash⟩ := hc
  rcases step_some h with h | h | h | h | h | h
  · rw [houtside] at h
    cases h
  · rw [hescape] at h
    cases h
  · rw [hhex] at h
    cases h
  · exact absurd h hu
  · exact absurd h hslash
  · exact h

lemma step_newline (h : step m 0x0a = some (ts,m')) : m' = .between := by
  cases m with
  | between => exact (Prod.mk.inj (Option.some.inj h)).2.symm
  | word letters =>
    rcases step_word_some h with ⟨hword,-⟩ | ⟨t,after,-,hafter,-⟩
    · cases hword
    · exact (Prod.mk.inj (Option.some.inj hafter)).2.symm
  | quoted | escaped | hex => cases h

lemma step_control (h : step m c = some (ts,m')) : isBlank c = true ∨ 0x20 ≤ c := by
  by_contra hno
  obtain ⟨hblank,hlow⟩ := not_or.mp hno
  have hword : isWord c = false := by
    simp only [isWord,isDigit,isLetter,Bool.or_eq_false_iff,Bool.and_eq_false_iff, decide_eq_false_iff_not]
    omega
  have hp : punctuation c = none := by
    unfold punctuation
    split_ifs <;> first | omega | rfl
  have hescape : escapeValue c = none := by
    simp only [escapeValue,Bool.or_eq_true,decide_eq_true_eq]
    split_ifs <;> first | omega | rfl
  have hhex : hexValue c = none := by
    simp only [hexValue,isDigit,Bool.and_eq_true,decide_eq_true_eq]
    split_ifs <;> first | omega | rfl
  have hquote : c ≠ 0x22 := by omega
  have hout : outside c = false := by simp [outside,hblank,hquote,hp,hword]
  have hu : c ≠ 0x75 := by omega
  have hslash : c ≠ 0x5c := by omega
  have honly : stringOnly c = true := by simp [stringOnly,hout,hescape,hhex,hu,hslash]
  exact hlow (step_stringOnly honly h).1

lemma lex_control (h : lex m s = some ts) (hc : c ∈ s) : isBlank c = true ∨ 0x20 ≤ c := by
  induction s generalizing m ts with
  | nil => cases hc
  | cons d s ih =>
    obtain ⟨_,_,_,hstep,hrest,-⟩ := lex_cons_some h
    rcases List.mem_cons.mp hc with rfl | hlater
    · exact step_control hstep
    · exact ih hrest hlater

lemma lex_append_congr (h : ∀ m, lex m x = lex m y) (m : Mode) (s : Text) :
    lex m (s++x) = lex m (s++y) := by
  induction s generalizing m with
  | nil => exact h m
  | cons c s ih =>
    cases hstep : step m c with
    | none =>
      rw [List.cons_append,List.cons_append,lex,lex,hstep]
      rfl
    | some next => rw [List.cons_append,List.cons_append,lex_cons hstep,lex_cons hstep,ih]

lemma lex_blank (hc : isBlank c = true) : lex .between (c::s) = lex .between s := by
  have hstep : step .between c = some ([],.between) := if_pos hc
  rw [lex_cons hstep]
  simp

lemma lex_blanks (hw : ∀ c ∈ w, isBlank c = true) : lex .between (w++s) = lex .between s := by
  induction w with
  | nil => rfl
  | cons c w ih =>
    rw [List.cons_append,lex_blank (hw c (List.mem_cons_self ..)),
      ih fun d hd => hw d (List.mem_cons_of_mem _ hd)]

lemma lex_newlines (m : Mode) (hw : ∀ c ∈ w, c = 0x0a) :
    lex m (0x0a::(w++s)) = lex m (0x0a::s) := by
  cases hstep : step m 0x0a with
  | none =>
    rw [lex,lex,hstep]
    rfl
  | some next =>
    obtain ⟨first,m'⟩ := next
    obtain rfl := step_newline hstep
    rw [lex_cons hstep,lex_cons hstep,lex_blanks fun c hc => by rw [hw c hc]; rfl]

lemma isBlank_cases (hc : isBlank c = true) : c = 0x20 ∨ c = 0x09 ∨ c = 0x0a ∨ c = 0x0d := by
  simpa [isBlank,or_assoc] using hc

lemma lex_quoted_blanks (body : List (Bool × ℕ)) (hw : ∀ c ∈ w, isBlank c = true) :
    lex (.quoted body) w = none := by
  induction w generalizing body with
  | nil => rfl
  | cons c w ih =>
    have hlater : ∀ d ∈ w, isBlank d = true := fun d hd => hw d (List.mem_cons_of_mem _ hd)
    rcases isBlank_cases (hw c (List.mem_cons_self ..)) with rfl | rfl | rfl | rfl
    · have hstep : step (.quoted body) 0x20 = some ([],.quoted (body++[(false,0x20)])) := rfl
      rw [lex_cons hstep,ih _ hlater]
      rfl
    all_goals rfl

lemma lex_blanks_end (m : Mode) (hw : ∀ c ∈ w, isBlank c = true) : lex m w = finish m := by
  cases w with
  | nil => rfl
  | cons c w =>
    have hlater : ∀ d ∈ w, isBlank d = true := fun d hd => hw d (List.mem_cons_of_mem _ hd)
    have hend : lex .between w = some [] := by
      have h := lex_blanks (s := []) hlater
      rwa [List.append_nil] at h
    have hblank := hw c (List.mem_cons_self ..)
    cases m with
    | between => rw [lex_blank hblank,hend,finish]
    | word letters =>
      have hword : isWord c = false := by
        rcases isBlank_cases hblank with rfl | rfl | rfl | rfl <;> rfl
      have hbetween : stepBetween c = some ([],.between) := if_pos hblank
      cases ht : wordToken letters with
      | none => simp [lex,step,finish,hword,ht]
      | some t => simp [lex,step,finish,hword,ht,hbetween,hend]
    | quoted body => exact lex_quoted_blanks body hw
    | escaped | hex => rcases isBlank_cases hblank with rfl | rfl | rfl | rfl <;> rfl

lemma lex_append_blanks (m : Mode) (hw : ∀ c ∈ w, isBlank c = true) : lex m (s++w) = lex m s := by
  have h := lex_append_congr (x := w) (y := []) (fun m => by rw [lex_blanks_end m hw,lex]) m s
  rwa [List.append_nil] at h

theorem lex_eq_nil (h : lex m s = some []) : m = .between ∧ ∀ c ∈ s, isBlank c = true := by
  induction s generalizing m with
  | nil =>
    refine ⟨?_,by simp⟩
    cases m with
    | between => rfl
    | word letters =>
      obtain ⟨t,-,ht⟩ := Option.map_eq_some_iff.mp h
      cases ht
    | quoted | escaped | hex => cases h
  | cons c s ih =>
    obtain ⟨first,m',rest,hstep,hrest,heq⟩ := lex_cons_some h
    obtain ⟨rfl,rfl⟩ := List.append_eq_nil_iff.mp heq.symm
    obtain ⟨rfl,hblank⟩ := ih hrest
    have hfirst : m = .between ∧ isBlank c = true := by
      cases m with
      | between =>
        rcases stepBetween_some hstep with ⟨h,-⟩ | ⟨-,-,h⟩ | ⟨t,-,h,-⟩ | ⟨-,-,h⟩
        · exact ⟨rfl,h⟩
        · cases h
        · cases h
        · cases h
      | word letters =>
        rcases step_word_some hstep with ⟨-,-,h⟩ | ⟨t,after,-,-,h⟩ <;> cases h
      | quoted body =>
        rcases step_quoted_some hstep with ⟨-,h,-⟩ | ⟨-,-,h⟩ | ⟨-,-,h⟩ <;> cases h
      | escaped body => obtain ⟨-,⟨-,h⟩ | ⟨v,-,h⟩⟩ := step_escaped_some hstep <;> cases h
      | hex body digits => obtain ⟨-,-,⟨d,h⟩ | ⟨v,h⟩⟩ := step_hex_some hstep <;> cases h
    refine ⟨hfirst.1,?_⟩
    intro d hd
    rcases List.mem_cons.mp hd with rfl | hd
    · exact hfirst.2
    · exact hblank d hd

def Token.isBracket : Token → Bool
  | .scalar _ => false
  | .string _ => false
  | _ => true

variable {t : Token}

lemma wordToken_not_bracket (h : wordToken w = some t) : t.isBracket = false := by
  unfold wordToken at h
  split at h
  · cases h
    rfl
  · split at h
    · cases h
      rfl
    · cases h

theorem lex_pending (hm : m ≠ .between) (h : lex m s = some (t::ts)) : t.isBracket = false := by
  induction s generalizing m with
  | nil =>
    cases m with
    | between => exact absurd rfl hm
    | word letters =>
      obtain ⟨u,hu,ht⟩ := Option.map_eq_some_iff.mp h
      obtain ⟨rfl,-⟩ := List.cons.inj ht
      exact wordToken_not_bracket hu
    | quoted | escaped | hex => cases h
  | cons c s ih =>
    obtain ⟨first,m',rest,hstep,hrest,heq⟩ := lex_cons_some h
    have hlater : first = [] → m' ≠ .between → t.isBracket = false := by
      rintro rfl hm'
      exact ih hm' (by rw [hrest,heq]; rfl)
    cases m with
    | between => exact absurd rfl hm
    | word letters =>
      rcases step_word_some hstep with ⟨-,hnil,h⟩ | ⟨u,after,hu,-,rfl⟩
      · exact hlater hnil (by rw [h]; simp)
      · obtain ⟨rfl,-⟩ := List.cons.inj heq
        exact wordToken_not_bracket hu
    | quoted body =>
      rcases step_quoted_some hstep with ⟨-,rfl,-⟩ | ⟨-,hnil,h⟩ | ⟨-,hnil,h⟩
      · obtain ⟨rfl,-⟩ := List.cons.inj heq
        rfl
      · exact hlater hnil (by rw [h]; simp)
      · exact hlater hnil (by rw [h]; simp)
    | escaped body =>
      obtain ⟨hnil,⟨-,h⟩ | ⟨v,-,h⟩⟩ := step_escaped_some hstep
      · exact hlater hnil (by rw [h]; simp)
      · exact hlater hnil (by rw [h]; simp)
    | hex body digits =>
      obtain ⟨-,hnil,⟨d,h⟩ | ⟨v,h⟩⟩ := step_hex_some hstep
      · exact hlater hnil (by rw [h]; simp)
      · exact hlater hnil (by rw [h]; simp)

lemma lex_first (ht : t.isBracket = true) (h : lex .between s = some (t::ts)) :
    ∃ w c r, s = w++c::r ∧ (∀ d ∈ w, isBlank d = true) ∧ punctuation c = some t := by
  induction s with
  | nil => cases h
  | cons c s ih =>
    obtain ⟨first,m',rest,hstep,hrest,heq⟩ := lex_cons_some h
    rcases stepBetween_some hstep with ⟨hblank,rfl,rfl⟩ | ⟨-,rfl,rfl⟩ | ⟨u,hu,rfl,rfl⟩ |
      ⟨-,rfl,rfl⟩
    · obtain ⟨w,d,r,rfl,hw,hd⟩ := ih (by rw [hrest,heq]; rfl)
      refine ⟨c::w,d,r,rfl,?_,hd⟩
      intro e he
      rcases List.mem_cons.mp he with rfl | he
      · exact hblank
      · exact hw e he
    · rw [lex_pending (m := .quoted []) (by simp) (by rw [hrest,heq]; rfl)] at ht
      cases ht
    · obtain ⟨rfl,-⟩ := List.cons.inj heq
      exact ⟨[],c,s,rfl,by simp,hu⟩
    · rw [lex_pending (m := .word [c]) (by simp) (by rw [hrest,heq]; rfl)] at ht
      cases ht

lemma stepBetween_last (h : stepBetween c = some (ts,m')) (hlast : ts.getLast? = some t) :
    punctuation c = some t := by
  rcases stepBetween_some h with ⟨-,rfl,-⟩ | ⟨-,rfl,-⟩ | ⟨u,hu,rfl,-⟩ | ⟨-,rfl,-⟩
  · cases hlast
  · cases hlast
  · obtain rfl : u = t := by simpa using hlast
    exact hu
  · cases hlast

lemma lex_last (ht : t.isBracket = true) (h : lex m s = some ts) (hlast : ts.getLast? = some t) :
    ∃ r c w, s = r++c::w ∧ (∀ d ∈ w, isBlank d = true) ∧ punctuation c = some t := by
  induction s generalizing m ts with
  | nil =>
    exfalso
    cases m with
    | between =>
      obtain rfl : [] = ts := by simpa [lex,finish] using h
      cases hlast
    | word letters =>
      obtain ⟨u,hu,rfl⟩ := Option.map_eq_some_iff.mp h
      obtain rfl : u = t := by simpa using hlast
      rw [wordToken_not_bracket hu] at ht
      cases ht
    | quoted | escaped | hex => cases h
  | cons c s ih =>
    obtain ⟨first,m',rest,hstep,hrest,rfl⟩ := lex_cons_some h
    cases rest with
    | cons u rest =>
      rw [List.getLast?_append_of_ne_nil _ (by simp)] at hlast
      obtain ⟨r,d,w,rfl,hw,hd⟩ := ih hrest hlast
      exact ⟨c::r,d,w,rfl,hw,hd⟩
    | nil =>
      rw [List.append_nil] at hlast
      obtain ⟨-,hblank⟩ := lex_eq_nil hrest
      refine ⟨[],c,s,rfl,hblank,?_⟩
      cases m with
      | between => exact stepBetween_last hstep hlast
      | word letters =>
        rcases step_word_some hstep with ⟨-,rfl,-⟩ | ⟨u,after,hu,hafter,rfl⟩
        · cases hlast
        · cases after with
          | nil =>
            obtain rfl : u = t := by simpa using hlast
            rw [wordToken_not_bracket hu] at ht
            cases ht
          | cons e after =>
            exact stepBetween_last hafter hlast
      | quoted body =>
        rcases step_quoted_some hstep with ⟨-,rfl,-⟩ | ⟨-,rfl,-⟩ | ⟨-,rfl,-⟩
        · obtain rfl : Token.string (decode body) = t := by simpa using hlast
          cases ht
        · cases hlast
        · cases hlast
      | escaped body =>
        obtain ⟨rfl,-⟩ := step_escaped_some hstep
        cases hlast
      | hex body digits =>
        obtain ⟨-,rfl,-⟩ := step_hex_some hstep
        cases hlast

def Frame.isObject : Frame → Bool
  | .array _ => false
  | .object _ _ => true

def Value.isObject : Value → Option Bool
  | .array _ => some false
  | .object _ => some true
  | _ => none

def outermost (innermost : Option Bool) (stack : List Frame) : Option Bool :=
  (stack.getLast?.map Frame.isObject).or innermost

def State.outer : State → Option Bool
  | .value stack => outermost none stack
  | .firstElement stack => outermost (some false) stack
  | .firstName stack => outermost (some true) stack
  | .name _ stack => outermost (some true) stack
  | .colon _ _ stack => outermost (some true) stack
  | .complete v stack => outermost v.isObject stack

lemma outermost_cons (inner : Option Bool) (f : Frame) (stack : List Frame) :
    outermost inner (f::stack) = outermost (some f.isObject) stack := by
  cases stack with
  | nil => rfl
  | cons g stack =>
    rfl

variable {b : Bool} {stack : List Frame}

lemma outermost_stack {inner inner' : Option Bool}
    (h : inner ≠ none → inner = inner') (hb : outermost inner stack = some b) :
    outermost inner' stack = some b := by
  unfold outermost at hb ⊢
  cases hlast : stack.getLast? with
  | some f =>
    rw [hlast] at hb
    exact hb
  | none =>
    rw [hlast] at hb
    rw [← h (by rw [show inner = some b from hb]; simp)]
    exact hb

lemma outer_startValue (h : startValue stack t = some σ)
    (hb : outermost none stack = some b) : σ.outer = some b := by
  cases t with
  | openObject | openArray =>
    cases h
    exact outermost_stack (by simp) hb
  | scalar | string =>
    cases h
    exact hb
  | _ => cases h

lemma advance_firstElement (ht : t ≠ .closeArray) :
    advance (.firstElement stack) t = startValue (.array []::stack) t := by
  cases t with
  | closeArray => exact absurd rfl ht
  | _ => rfl

lemma outer_advance (h : advance σ t = some σ') (hb : σ.outer = some b) : σ'.outer = some b := by
  cases σ with
  | value stack => exact outer_startValue h hb
  | firstElement stack =>
    have hinner : outermost none (Frame.array []::stack) = some b := by
      rw [outermost_cons]
      exact hb
    by_cases ht : t = .closeArray
    · subst ht
      cases h
      exact hb
    · rw [advance_firstElement ht] at h
      exact outer_startValue h hinner
  | firstName stack =>
    cases t with
    | closeObject | string =>
      cases h
      exact hb
    | _ => cases h
  | name done stack =>
    cases t with
    | string k =>
      cases h
      exact hb
    | _ => cases h
  | colon done k stack =>
    cases t with
    | colon =>
      cases h
      exact (outermost_cons none (.object done k) stack).trans hb
    | _ => cases h
  | complete v stack =>
    cases stack with
    | nil => cases t <;> cases h
    | cons f stack =>
      have hinner : outermost (some f.isObject) stack = some b :=
        (outermost_cons v.isObject f stack).symm.trans hb
      cases f with
      | array done =>
        cases t with
        | comma =>
          cases h
          exact (outermost_cons none _ stack).trans hinner
        | closeArray =>
          cases h
          exact hinner
        | _ => cases h
      | object done k =>
        cases t with
        | comma | closeObject =>
          cases h
          exact hinner
        | _ => cases h

lemma outer_run (h : ts.foldlM advance σ = some σ') (hb : σ.outer = some b) :
    σ'.outer = some b := by
  induction ts generalizing σ with
  | nil =>
    cases h
    exact hb
  | cons t ts ih =>
    obtain ⟨σ₁,hstep,hrest⟩ := Option.bind_eq_some_iff.mp h
    exact ih hrest (outer_advance hstep hb)

lemma parse_some (h : parse ts = some v) : ts.foldlM advance (.value []) =
    some (.complete v []) := by
  unfold parse at h
  split at h
  · rename_i u hrun
    cases h
    exact hrun
  · cases h

def opening : Bool → Token
  | true => .openObject
  | false => .openArray

def closing : Bool → Token
  | true => .closeObject
  | false => .closeArray

lemma parse_first (h : parse ts = some v) (hv : v.isObject = some b) :
    ∃ rest, ts = opening b::rest := by
  have hrun := parse_some h
  cases ts with
  | nil => cases hrun
  | cons t ts =>
    obtain ⟨σ₁,hstep,hrest⟩ := Option.bind_eq_some_iff.mp hrun
    have hkind : ∀ k, σ₁.outer = some k → some b = some k := by
      intro k hk
      rw [← hv]
      exact outer_run hrest hk
    have hdone : ∀ u : Value, u.isObject = none → σ₁ = .complete u [] → False := by
      rintro u hu rfl
      cases ts with
      | nil =>
        obtain ⟨rfl,-⟩ := State.complete.inj (Option.some.inj hrest)
        rw [hu] at hv
        cases hv
      | cons t' ts =>
        cases hrest
    cases t with
    | openObject =>
      cases hstep
      obtain rfl := Option.some.inj (hkind true rfl)
      exact ⟨ts,rfl⟩
    | openArray =>
      cases hstep
      obtain rfl := Option.some.inj (hkind false rfl)
      exact ⟨ts,rfl⟩
    | scalar u => exact (hdone (.scalar u) rfl (Option.some.inj hstep).symm).elim
    | string k => exact (hdone (.string k) rfl (Option.some.inj hstep).symm).elim
    | _ => cases hstep

lemma advance_complete (h : advance σ t = some (.complete v [])) (hv : v.isObject = some b) :
    t = closing b := by
  have hstart : ∀ {stack : List Frame}, startValue stack t ≠ some (.complete v []) := by
    intro stack hs
    cases t with
    | scalar | string =>
      obtain ⟨rfl,-⟩ := State.complete.inj (Option.some.inj hs)
      cases hv
    | _ => cases hs
  cases σ with
  | value stack => exact absurd h hstart
  | firstElement stack =>
    by_cases ht : t = .closeArray
    · subst ht
      obtain ⟨rfl,-⟩ := State.complete.inj (Option.some.inj h)
      cases hv
      rfl
    · rw [advance_firstElement ht] at h
      exact absurd h hstart
  | firstName stack =>
    cases t with
    | closeObject =>
      obtain ⟨rfl,-⟩ := State.complete.inj (Option.some.inj h)
      cases hv
      rfl
    | _ => cases h
  | name | colon => cases t <;> cases h
  | complete u stack =>
    cases stack with
    | nil => cases t <;> cases h
    | cons f stack =>
      cases f with
      | array done =>
        cases t with
        | closeArray =>
          obtain ⟨rfl,-⟩ := State.complete.inj (Option.some.inj h)
          cases hv
          rfl
        | _ => cases h
      | object done k =>
        cases t with
        | closeObject =>
          obtain ⟨rfl,-⟩ := State.complete.inj (Option.some.inj h)
          cases hv
          rfl
        | _ => cases h

lemma parse_last (h : parse ts = some v) (hv : v.isObject = some b) :
    ts.getLast? = some (closing b) := by
  have hrun := parse_some h
  induction ts using List.reverseRecOn with
  | nil => cases hrun
  | append_singleton ts t _ =>
    rw [List.foldlM_append] at hrun
    obtain ⟨σ₁,-,hlast⟩ := Option.bind_eq_some_iff.mp hrun
    have hstep : advance σ₁ t = some (.complete v []) := by simpa using hlast
    rw [advance_complete hstep hv]
    simp

end Memora.JsonText
