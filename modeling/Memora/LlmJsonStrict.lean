import Memora.JsonTextLaws
import Memora.LlmJson

/-! A text that is a JSON container keeps its tokens through the steps that only take white space,
fences or the surroundings of the container away. -/
namespace Memora.LlmJson
open JsonText Substitutions

variable {s w w' : Text} {ts : List Token} {v : Value} {b : Bool} {c : ℕ} {m : Mode}
    {word : ℕ → Bool}
  {prev : Option ℕ}

def openCode : Bool → ℕ
  | true => 0x7b
  | false => 0x5b

def closeCode : Bool → ℕ
  | true => 0x7d
  | false => 0x5d

structure Boxed (b : Bool) (ts : List Token) : Prop where
  first : ts.head? = some (opening b)
  last : ts.getLast? = some (closing b)

structure Tight (b : Bool) (s : Text) : Prop where
  first : ∃ r, s = openCode b::r
  last : ∃ r, s = r++[closeCode b]
  reads : ∃ ts, tokens s = some ts

lemma boxed_of_parse (h : parse ts = some v) (hv : v.isObject = some b) : Boxed b ts := by
  refine ⟨?_,parse_last h hv⟩
  obtain ⟨rest,rfl⟩ := parse_first h hv
  rfl

lemma punctuation_opening (h : punctuation c = some (opening b)) : c = openCode b := by
  unfold punctuation at h
  cases b <;> split_ifs at h <;> first | assumption | cases h

lemma punctuation_closing (h : punctuation c = some (closing b)) : c = closeCode b := by
  unfold punctuation at h
  cases b <;> split_ifs at h <;> first | assumption | cases h

lemma isSpace_of_isBlank (h : isBlank c = true) : isSpace c = true := by
  rcases isBlank_cases h with rfl | rfl | rfl | rfl <;> rfl

lemma dropWhile_append_cons {p : ℕ → Bool} (hw : ∀ d ∈ w, p d = true) (hc : p c = false) :
    (w++c::s).dropWhile p = c::s := by
  rw [List.dropWhile_append_of_pos hw,List.dropWhile_cons_of_neg (by simp [hc])]

lemma strip_between {r : Text} (hw : ∀ d ∈ w, isSpace d = true)
    (hw' : ∀ d ∈ w', isSpace d = true) (hs : s = openCode b::r) {r' : Text}
    (hs' : s = r'++[closeCode b]) : strip (w++(s++w')) = s := by
  have hopen : isSpace (openCode b) = false := by cases b <;> rfl
  have hclose : isSpace (closeCode b) = false := by cases b <;> rfl
  have hleft : (w++(s++w')).dropWhile isSpace = s++w' := by
    rw [hs]
    exact dropWhile_append_cons hw hopen
  rw [strip,hleft,List.rdropWhile,hs',List.reverse_append,List.reverse_append,
    List.reverse_singleton,List.singleton_append,
    dropWhile_append_cons (fun d hd => hw' d (List.mem_reverse.mp hd)) hclose]
  simp

lemma Tight.strip_eq (h : Tight b s) : strip s = s := by
  obtain ⟨r,hr⟩ := h.first
  obtain ⟨r',hr'⟩ := h.last
  have heq : strip ([]++(s++[])) = s := strip_between (by simp) (by simp) hr hr'
  rwa [List.nil_append,List.append_nil] at heq

theorem strip_tight (hread : tokens s = some ts) (hbox : Boxed b ts) :
    Tight b (strip s) ∧ tokens (strip s) = some ts ∧
      ∀ d, isSpace d = false → (d ∈ strip s ↔ d ∈ s) := by
  have hopen : (opening b).isBracket = true := by cases b <;> rfl
  have hclose : (closing b).isBracket = true := by cases b <;> rfl
  have hblankSpace : ∀ {u : Text}, (∀ d ∈ u, isBlank d = true) → ∀ d ∈ u, isSpace d = true :=
    fun hu d hd => isSpace_of_isBlank (hu d hd)
  obtain ⟨t,us,rfl⟩ : ∃ t us, ts = t::us := by
    cases ts with
    | nil => cases hbox.first
    | cons t us => exact ⟨t,us,rfl⟩
  obtain rfl : t = opening b := by simpa using hbox.first
  obtain ⟨w,c,r,rfl,hw,hc⟩ := lex_first hopen hread
  have hrest : tokens (c::r) = some (opening b::us) := (lex_blanks hw).symm.trans hread
  obtain ⟨r',d,w',hr',hw',hd⟩ := lex_last hclose hrest hbox.last
  obtain rfl := punctuation_opening hc
  obtain rfl := punctuation_closing hd
  have hinner : ∃ r'', r'++[closeCode b] = openCode b::r'' := by
    cases r' with
    | nil =>
      obtain ⟨hcodes,-⟩ := List.cons.inj hr'
      cases b <;> cases hcodes
    | cons e r' =>
      obtain ⟨rfl,-⟩ := List.cons.inj hr'
      exact ⟨r'++[closeCode b],rfl⟩
  have hsplit : openCode b::r = (r'++[closeCode b])++w' := by simpa using hr'
  obtain ⟨r'',hr''⟩ := hinner
  have hstrip : strip (w++openCode b::r) = r'++[closeCode b] := by
    rw [hsplit]
    exact strip_between (hblankSpace hw) (hblankSpace hw') hr'' rfl
  have htokens : tokens (r'++[closeCode b]) = some (opening b::us) := by
    rw [← hrest,hsplit]
    exact (lex_append_blanks .between hw').symm
  rw [hstrip]
  refine ⟨⟨⟨r'',hr''⟩,⟨r',rfl⟩,⟨_,htokens⟩⟩,htokens,?_⟩
  intro e he
  have hleft : e ∉ w := by
    intro hmem
    rw [hblankSpace hw e hmem] at he
    cases he
  have hright : e ∉ w' := by
    intro hmem
    rw [hblankSpace hw' e hmem] at he
    cases he
  rw [hsplit]
  simp only [List.mem_append]
  tauto

lemma blankLines_some {b : Option ℕ} {rest : Text} (h : blankLines b s = some rest) :
    ∃ x, s = newline::newline::(x++rest) ∧ ∀ d ∈ x, d = newline := by
  unfold blankLines at h
  split at h
  · rename_i hthree
    obtain ⟨y,rfl⟩ := hthree
    cases h
    refine ⟨newline::y.takeWhile (· = newline),?_,?_⟩
    · simp
    · intro d hd
      rcases List.mem_cons.mp hd with rfl | hd
      · rfl
      · simpa using List.mem_takeWhile_imp hd
  · cases h

lemma blankLines_consuming : Consuming blankLines := by
  intro b c s rest h
  obtain ⟨x,heq,-⟩ := blankLines_some h
  obtain ⟨-,rfl⟩ := List.cons.inj heq
  exact ⟨newline::x,rfl⟩

lemma tokens_blankLines (s : Text) : tokens (substitute blankLines [newline,newline] s) =
    tokens s := by
  have hall : ∀ m, lex m (substitute blankLines [newline,newline] s) = lex m s := by
    apply substitute_induction (p := blankLines) (r := [newline,newline]) blankLines_consuming
      (Q := fun _ s s' => ∀ m, lex m s' = lex m s)
    · intro _ m
      rfl
    · intro _ c s s' _ ih m
      exact lex_append_congr ih m [c]
    · intro b _ c x rest s' hmatch ih m
      obtain ⟨y,heq,hy⟩ := blankLines_some hmatch
      have hone : ∀ d ∈ [newline], d = 0x0a := by simp [newline]
      have hmany : ∀ d ∈ newline::y, d = 0x0a := by
        intro d hd
        rcases List.mem_cons.mp hd with rfl | hd
        · rfl
        · exact hy d hd
      calc lex m ([newline,newline]++s')
          = lex m ([newline,newline]++rest) := lex_append_congr ih m _
        _ = lex m (newline::rest) := lex_newlines m hone
        _ = lex m (newline::(newline::y++rest)) := (lex_newlines m hmany).symm
        _ = lex m (c::(x++rest)) := by rw [heq]; rfl
  exact hall .between

lemma mem_blankLines (hc : c ≠ newline) : c ∈ substitute blankLines [newline,newline] s ↔
    c ∈ s := by
  apply substitute_induction (p := blankLines) (r := [newline,newline]) blankLines_consuming
    (Q := fun _ s s' => c ∈ s' ↔ c ∈ s)
  · intro _
    rfl
  · intro _ d s s' _ ih
    rw [List.mem_cons,List.mem_cons,ih]
  · intro _ _ d x rest s' hmatch ih
    obtain ⟨y,heq,hy⟩ := blankLines_some hmatch
    have hnot : c ∉ y := fun hmem => hc (hy c hmem)
    rw [heq]
    simp [hnot,ih]

lemma stringOnly_backtick : stringOnly 0x60 = true := rfl

lemma fence_eq : fence = [0x60,0x60,0x60] := by decide

lemma dropLiteral_exactly {l rest : Text} (h : dropLiteral exactly l s = some rest) :
    s = l++rest := by
  obtain ⟨x,rfl,hx⟩ := dropLiteral_some h
  have heq : ∀ {l x : Text}, List.Forall₂ (fun l c => exactly l c = true) l x → l = x := by
    intro l x hx
    induction hx with
    | nil => rfl
    | cons hsame _ ih => rw [show _ = _ from of_decide_eq_true hsame,ih]
  rw [heq hx]

lemma dropLiteral_fence {rest : Text} (h : dropLiteral exactly fence s = some rest) :
    s = 0x60::0x60::0x60::rest := by
  have heq := dropLiteral_exactly h
  rwa [fence_eq] at heq

lemma lex_backtick (h : lex m (0x60::s) = some ts) :
    (∃ body, m = .quoted body) ∧ ∃ body, lex (.quoted body) s = some ts := by
  obtain ⟨first,m',rest,hstep,hrest,rfl⟩ := lex_cons_some h
  obtain ⟨-,body,hm,rfl,rfl⟩ := step_stringOnly stringOnly_backtick hstep
  exact ⟨⟨body,hm⟩,_,hrest⟩

lemma isSpace_between (hc : isSpace c = true) (h : stepBetween c = some (ts,m)) : m = .between := by
  rcases stepBetween_some h with ⟨-,-,h⟩ | ⟨rfl,-⟩ | ⟨t,-,-,h⟩ | ⟨hword,-,-⟩
  · exact h
  · cases hc
  · exact h
  · exfalso
    simp only [isSpace,isWord,isDigit,isLetter,Bool.or_eq_true,Bool.and_eq_true, decide_eq_true_eq] at hc hword
    omega

lemma no_fence_between (h : lex .between s = some ts) :
    dropLiteral exactly fence (s.dropWhile isSpace) = none := by
  induction s generalizing ts with
  | nil => rfl
  | cons c s ih =>
    obtain ⟨first,m',rest,hstep,hrest,-⟩ := lex_cons_some h
    by_cases hc : isSpace c = true
    · obtain rfl := isSpace_between hc hstep
      rw [List.dropWhile_cons_of_pos hc]
      exact ih hrest
    · rw [List.dropWhile_cons_of_neg hc]
      cases hd : dropLiteral exactly fence (c::s) with
      | none => rfl
      | some rest =>
        rw [dropLiteral_fence hd] at h
        obtain ⟨⟨body,hm⟩,-⟩ := lex_backtick h
        cases hm

lemma no_lineEnd_quoted {body : List (Bool × ℕ)} (h : lex (.quoted body) s = some ts) :
    spacesToLineEnd s = none := by
  induction s generalizing body ts with
  | nil => cases h
  | cons c s ih =>
    obtain ⟨first,m',rest,hstep,hrest,-⟩ := lex_cons_some h
    by_cases hc : isSpace c = true
    · rcases step_quoted_some hstep with ⟨rfl,-⟩ | ⟨rfl,-⟩ | ⟨hlow,-,rfl⟩
      · cases hc
      · cases hc
      · have hnot : c ≠ newline := by
          rintro rfl
          exact absurd hlow (by decide)
        rw [spacesToLineEnd,if_pos hc,ih hrest]
        exact if_neg hnot
    · rw [spacesToLineEnd,if_neg hc]

lemma lineFence_not_occurs (hprev : prev = none ∨ prev = some newline → m = .between)
    (h : lex m s = some ts) :
    occursFrom (lineFence word) prev s = false := by
  induction s generalizing m prev ts with
  | nil => rfl
  | cons c s ih =>
    obtain ⟨first,m',rest,hstep,hrest,-⟩ := lex_cons_some h
    have hnone : lineFence word prev (c::s) = none := by
      unfold lineFence
      split
      · rename_i hstart
        obtain rfl := hprev hstart
        rw [no_fence_between h]
        rfl
      · rfl
    have hlater : occursFrom (lineFence word) (some c) s = false := by
      apply ih (m := m') _ hrest
      intro hstart
      obtain rfl : c = newline := by simpa using hstart
      exact step_newline hstep
    rw [occursFrom,hnone,hlater]
    rfl

lemma trailingFence_not_occurs (h : lex m s = some ts) :
    occursFrom trailingFence prev s = false := by
  induction s generalizing m prev ts with
  | nil => rfl
  | cons c s ih =>
    obtain ⟨first,m',rest,hstep,hrest,-⟩ := lex_cons_some h
    have hnone : trailingFence prev (c::s) = none := by
      cases hmatch : trailingFence prev (c::s) with
      | none => rfl
      | some left =>
        exfalso
        obtain ⟨after,hfence,hend⟩ := Option.bind_eq_some_iff.mp hmatch
        rw [dropLiteral_fence hfence] at h
        obtain ⟨-,_,hone⟩ := lex_backtick h
        obtain ⟨-,_,htwo⟩ := lex_backtick hone
        obtain ⟨-,_,hthree⟩ := lex_backtick htwo
        rw [no_lineEnd_quoted hthree] at hend
        cases hend
    rw [occursFrom,hnone,ih hrest]
    rfl

/-- Fences occur only within strings, where no line starts or ends. -/
theorem cleanMarkdownBlocks_tight (h : Tight b s) : cleanMarkdownBlocks word s = s := by
  obtain ⟨ts,hread⟩ := h.reads
  obtain ⟨r,hr⟩ := h.first
  obtain ⟨r',hr'⟩ := h.last
  have hfirst : ¬fence <+: s := by
    rintro ⟨y,hy⟩
    rw [hr] at hy
    obtain ⟨hcodes,-⟩ := List.cons.inj hy
    cases b <;> cases hcodes
  have hlast : ¬fence <:+ s := by
    rintro ⟨y,hy⟩
    have hends := congrArg List.getLast? (hy.trans hr')
    rw [List.getLast?_append_of_ne_nil _ (by decide),List.getLast?_concat] at hends
    cases b <;> cases hends
  have hline : substitute (lineFence word) [] s = s :=
    substituteFrom_of_not_occurs (lineFence_not_occurs (by simp) hread)
  have htrailing : substitute trailingFence [] s = s :=
    substituteFrom_of_not_occurs (trailingFence_not_occurs hread)
  have hne : s ≠ [] := by
    rw [hr]
    simp
  rw [cleanMarkdownBlocks,if_neg hne,h.strip_eq,dropFirstFence,if_neg hfirst,dropLastFence,
    if_neg hlast]
  dsimp only
  rw [hline,htrailing,h.strip_eq]

lemma between_tight (h : Tight b s) : between (openCode b) (closeCode b) s = some s := by
  obtain ⟨r,rfl⟩ := h.first
  obtain ⟨r',hr'⟩ := h.last
  have hlen : (openCode b::r).length = r'.length+1 := by rw [hr']; simp
  have hpos : 0 < r'.length := by
    cases r' with
    | nil =>
      obtain ⟨hcodes,-⟩ := List.cons.inj hr'
      cases b <;> cases hcodes
    | cons d r' => simp
  have hfind : find (openCode b) (openCode b::r) = some 0 := by
    simp [find,List.findIdx?_cons]
  have hrfind : rfind (closeCode b) (openCode b::r) = some r'.length := by
    rw [rfind,hlen,hr',List.reverse_append]
    simp [List.findIdx?_cons]
  rw [between,hfind,hrfind]
  change (if 0 < r'.length then _ else none) = _
  rw [if_pos hpos,← hlen,List.take_length,List.drop_zero]

lemma extractJsonContent_tight (h : Tight b s) : extractJsonContent s = s := by
  have hne : s ≠ [] := by
    obtain ⟨r,rfl⟩ := h.first
    simp
  have hbetween := between_tight h
  rw [extractJsonContent,if_neg hne]
  dsimp only
  rw [h.strip_eq]
  obtain ⟨r,hr⟩ := h.first
  cases b with
  | true =>
    have hfirst : objectFirst s = true := by
      have hfind : find 0x7b s = some 0 := by rw [hr]; simp [find,openCode,List.findIdx?_cons]
      rw [objectFirst,hfind]
      cases ha : find 0x5b s with
      | none => rfl
      | some n =>
        have hn : n ≠ 0 := by
          rintro rfl
          rw [hr] at ha
          simp [find,openCode,List.findIdx?_cons] at ha
        simpa using Nat.pos_of_ne_zero hn
    rw [hfirst]
    rw [show between 0x7b 0x7d s = some s from hbetween]
    rfl
  | false =>
    have hfirst : objectFirst s = false := by
      have hfind : find 0x5b s = some 0 := by rw [hr]; simp [find,openCode,List.findIdx?_cons]
      rw [objectFirst,hfind]
      cases ho : find 0x7b s with
      | none => rfl
      | some n => simp
    rw [hfirst]
    rw [show between 0x5b 0x5d s = some s from hbetween]
    rfl

end Memora.LlmJson
