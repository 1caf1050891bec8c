import Memora.InjectionTexts
import Memora.InjectionExecution

/-! What the cleaner makes of a request into which a payload was delivered. -/
namespace Memora.Injection
open TextPatterns

lemma removeAll_protect (payload rest : Text) :
    removeAll cleanupPatterns (protect payload++rest) = removeAll cleanupPatterns rest := by
  have hmatch := matchLength_protect payload rest
  rw [removeAll_match hmatch (cleanupPatterns_separated.match_pos hmatch),List.drop_left]

lemma containsInjection_protect (payload rest : Text) :
    containsInjection (protect payload++rest) = true := by
  have hmatch := matchLength_protect payload rest
  have hshape : protect payload++rest = '<'::(("memora-untrusted-memory>".toList ++
      (envelopeBody payload++verifiedFooter))++rest) := by
    rw [protect_eq]
    rfl
  rw [hshape] at hmatch ⊢
  exact occurs_of_match (by rw [hmatch]; rfl)

lemma cleanPrompt_before (payload prompt : Text) :
    normalise (cleanPrompt (protect payload++['\n','\n']++prompt)) =
      normalise (removeAll cleanupPatterns prompt) := by
  unfold cleanPrompt
  rw [List.append_assoc,if_pos (containsInjection_protect _ _),removeAll_protect]
  change normalise (normalise (removeAll cleanupPatterns ('\n' :: '\n'::prompt))) = _
  rw [normalise_idempotent,cleanupPatterns_separated.removeAll_sep,
    cleanupPatterns_separated.removeAll_sep,normalise_newlines_append]

theorem containsInjection_of_same {s : Text}
    (h : normalise (removeAll cleanupPatterns s) = normalise s) : containsInjection s = false := by
  by_contra hfound
  have hless := cleanupPatterns_separated.countP_removeAll_lt cleanupPatterns_visible
    (Bool.of_not_eq_false hfound)
  rw [← countP_normalise,← countP_normalise s,h] at hless
  exact absurd hless (Nat.lt_irrefl _)

lemma removeAll_of_clean {s : Text} (h : containsInjection s = false) :
    removeAll cleanupPatterns s = s := removeAll_of_not_occurs h

def BoundaryFree (s : Text) : Prop := ∀ b ∈ reservedBoundaries, ¬b.1 <:+: s

instance (s : Text) : Decidable (BoundaryFree s) :=
  inferInstanceAs (Decidable (∀ b ∈ reservedBoundaries, ¬b.1 <:+: s))

lemma BoundaryFree.header {s : Text} (h : BoundaryFree s) : ∀ d ∈ cleanupPatterns, d.1 <:+: s →
    d = (memoryInjectionHeader,memoryInjectionFooter) := by
  have hreplay : ¬replayHeader <:+: s := h _ (List.mem_cons_of_mem _ (List.mem_cons_of_mem _
    (List.mem_cons_of_mem _ (List.mem_cons_self ..))))
  have hverified : ¬verifiedHeader <:+: s := h _ (List.mem_cons_of_mem _ (List.mem_cons_self ..))
  intro d hd hin
  simp only [cleanupPatterns,List.mem_cons,List.not_mem_nil,or_false] at hd
  rcases hd with rfl | rfl | rfl
  · exact absurd hin hreplay
  · exact absurd hin hverified
  · rfl

lemma not_infix_newline_protect {payload : Text} (h : ¬memoryInjectionFooter <:+: protect payload) :
    ¬memoryInjectionFooter <:+: '\n'::protect payload := by
  intro hin
  rcases List.infix_cons_iff.mp hin with hfirst | hlater
  · exact absurd (List.cons_prefix_cons.mp hfirst).1 (by decide)
  · exact h hlater

/-- The fixed lines of an envelope hold the boundary of no other. -/
lemma fixed_lines_apart : ¬memoryInjectionFooter <:+:
    '\n'::verifiedHeader++protectionNotice.dropLast ∧
    ¬memoryInjectionFooter <:+: verifiedFooter ∧ ¬replayFooter <:+: verifiedFooter++['\n'] ∧
    removeAll cleanupPatterns verifiedFooter = verifiedFooter := by
  decide +kernel

lemma behind_footer {payload u y : Text} (h :
    '\n'::protect payload = u++(memoryInjectionFooter++y)) :
    ∃ w, y = w ++ '\n'::verifiedFooter ∧ w <:+: escape payload := by
  have hnewline : '\n' ∉ memoryInjectionFooter := by decide
  obtain ⟨hbefore,hbehind,-⟩ := fixed_lines_apart
  have hnotice : protectionNotice = protectionNotice.dropLast++['\n'] := by decide
  have hbody : envelopeBody payload = protectionNotice.dropLast ++ '\n'::(escape payload++['\n']) := by
    rw [envelopeBody,hnotice,List.append_assoc,List.dropLast_concat,List.singleton_append]
  have hshape : u++(memoryInjectionFooter++y) = ('\n'::verifiedHeader++protectionNotice.dropLast) ++
      '\n'::(escape payload ++ '\n'::verifiedFooter) := by
    rw [← h,protect_eq,hbody]
    simp only [List.cons_append,List.append_assoc,List.nil_append]
  rcases split_at_sep hnewline hshape with ⟨w,hstart,-⟩ | ⟨u',-,hrest⟩
  · exact absurd ⟨u,w,by rw [hstart,List.append_assoc]⟩ hbefore
  rcases split_at_sep hnewline hrest.symm with ⟨w,hescape,hy⟩ | ⟨u'',-,hfooter⟩
  · exact ⟨w,hy,⟨u'++memoryInjectionFooter,[],by rw [hescape]; simp⟩⟩
  · exact absurd ⟨u'',y,by rw [hfooter,List.append_assoc]⟩ hbehind

lemma verifiedFooter_visible : ∀ c ∈ verifiedFooter, Canonical.pythonIsSpace c = false := by
  have h : verifiedFooter.all (fun c => !Canonical.pythonIsSpace c) = true := by decide
  intro c hc
  simpa using List.all_eq_true.mp h c hc

theorem removeAll_behind {payload w : Text} (h : w <:+: escape payload) :
    removeAll cleanupPatterns (w ++ '\n'::verifiedFooter) =
      removeAll cleanupPatterns w ++ '\n'::verifiedFooter := by
  obtain ⟨-,hbehind,-,hend⟩ := fixed_lines_apart
  have hfree : BoundaryFree w := fun b hb hin => not_infix_escape payload b hb (hin.trans h)
  rw [cleanupPatterns_separated.removeAll_append,hend]
  intro d hd hheader
  rw [hfree.header d hd hheader]
  exact hbehind

/-- The prompt of a message with the payload after it is the prompt again exactly if it has no
injection and no header that a footer in the payload closes. -/
theorem cleanPrompt_after (payload : Text) {prompt : Text} (hfree : BoundaryFree prompt) :
    normalise (cleanPrompt (prompt++['\n','\n']++protect payload)) = normalise prompt ↔
      containsInjection prompt = false ∧
        ¬(memoryInjectionHeader <:+: prompt ∧ memoryInjectionFooter <:+: protect payload) := by
  have hclean : normalise (cleanPrompt (prompt++['\n','\n']++protect payload)) =
      normalise (removeAll cleanupPatterns (prompt ++ '\n' :: '\n'::protect payload)) := by
    have hfound : containsInjection (prompt++['\n','\n']++protect payload) = true := by
      refine occurs_append _ ?_
      have h := containsInjection_protect payload []
      rwa [List.append_nil] at h
    unfold cleanPrompt
    rw [if_pos hfound]
    change normalise (normalise _) = _
    rw [normalise_idempotent,List.append_assoc]
    rfl
  have htail : removeAll cleanupPatterns ('\n'::protect payload) = ['\n'] := by
    have h := removeAll_protect payload []
    rw [List.append_nil] at h
    rw [cleanupPatterns_separated.removeAll_sep,h]
    rfl
  rw [hclean]
  constructor
  · intro hsame
    rcases cleanupPatterns_separated.removeAll_through cleanupPatterns_visible prompt
        ('\n'::protect payload) with ⟨x',hx',-,hcase⟩ | ⟨x',d,hd,u,y,hheader,hty,hx'⟩
    · rw [hx',htail,normalise_append_newlines] at hsame
      have hcount : x'.countP visible = prompt.countP visible := by
        rw [← countP_normalise,hsame,countP_normalise]
      have hnone := hcase.resolve_left (by omega)
      have hwhole := cleanupPatterns_separated.removeAll_append hnone
      rw [hx',htail] at hwhole
      have hprompt : x' = removeAll cleanupPatterns prompt := List.append_cancel_right hwhole
      refine ⟨containsInjection_of_same (by rw [← hprompt]; exact hsame),fun ⟨hin,hfooter⟩ => ?_⟩
      exact hnone _ (List.mem_cons_of_mem _ (List.mem_cons_of_mem _ (List.mem_cons_self ..))) hin
        (List.infix_cons hfooter)
    · -- the match ended in the payload, so the end of the envelope is left
      rw [hfree.header d hd hheader] at hty
      obtain ⟨w,rfl,hw⟩ := behind_footer hty
      rw [hx',removeAll_behind hw] at hsame
      have hleft : verifiedFooter <:+: normalise prompt := by
        rw [← hsame]
        have h := infix_normalise_append (m := verifiedFooter) (by decide) verifiedFooter_visible
          (x'++(removeAll cleanupPatterns w++['\n']))
        simpa only [List.append_assoc,List.cons_append,List.nil_append] using h
      exact absurd (infix_of_normalise (by decide) hleft) (hfree _ (List.mem_cons_self ..))
  · rintro ⟨hclean,hnot⟩
    have hnone : ∀ d ∈ cleanupPatterns, d.1 <:+: prompt → ¬d.2 <:+: '\n'::protect payload := by
      intro d hd hheader
      obtain rfl := hfree.header d hd hheader
      exact not_infix_newline_protect fun hfooter => hnot ⟨hheader,hfooter⟩
    rw [cleanupPatterns_separated.removeAll_append hnone,htail,removeAll_of_clean hclean,
      normalise_append_newlines]

lemma cleanText_ne {text : Text} (h : containsInjection text = true) : cleanText text ≠ text := by
  intro hsame
  have hless := cleanupPatterns_separated.countP_removeAll_lt cleanupPatterns_visible h
  have hcount : (cleanText text).countP visible = (removeAll cleanupPatterns text).countP visible := by
    unfold cleanText
    exact (countP_collapseFrom 0 _).trans (countP_strip _)
  rw [hsame] at hcount
  omega

lemma lookup_assign (key : String) (value : Value) (entries : List (String × Value)) :
    lookup key (Dict.assign key value entries) = some value := by
  induction entries with
  | nil => simp [Dict.assign,lookup]
  | cons e entries ih =>
    rw [Dict.assign]
    split
    · simp [lookup]
    · rename_i hne
      unfold lookup at ih ⊢
      rw [List.find?_cons_of_neg (by simpa using hne)]
      exact ih

lemma lookup_of_withEntry {key : String} {value : Value} {entries : List (String × Value)}
    (h : withEntry key value entries = .dict entries) : lookup key entries = some value := by
  have hsame : Dict.assign key value entries = entries := Value.dict.inj h
  have hentry := lookup_assign key value entries
  rwa [hsame] at hentry

lemma cleanedText_eq_some {whole : Value} {text : Text} {rebuilt : Text → Value}
    (h : ∀ t, rebuilt t = whole → t = text) :
    cleanedText whole text rebuilt = some whole ↔ containsInjection text = false := by
  unfold cleanedText
  cases hfound : containsInjection text with
  | false => simp
  | true =>
    have hne := cleanText_ne hfound
    simp only [Bool.not_true,Bool.false_eq_true,if_false,if_neg hne,reduceCtorEq,iff_false]
    split
    · simp
    · exact fun hsame => hne (h _ (Option.some.inj hsame))

lemma cleanItem_eq_some (item : Value) :
    cleanItem item = some item ↔ (partText item).any containsInjection = false := by
  cases item with
  | dict entries =>
    unfold cleanItem
    dsimp only
    cases hpart : partText (.dict entries) with
    | none => simp
    | some text =>
      dsimp only
      rw [Option.any_some]
      refine cleanedText_eq_some fun t ht => ?_
      have hentry := lookup_of_withEntry ht
      unfold partText at hpart
      dsimp only at hpart
      rw [hentry] at hpart
      dsimp only [Option.getD_some] at hpart
      split at hpart
      · rename_i kind text' _ heq
        split at hpart
        · obtain rfl := Option.some.inj hpart
          exact Value.str.inj heq
        · cases hpart
      · cases hpart
  | _ => simp [cleanItem,partText]

lemma filterMap_eq_self {β : Type*} {f : β → Option β} {l : List β} :
    l.filterMap f = l ↔ ∀ b ∈ l, f b = some b := by
  induction l with
  | nil => simp
  | cons b l ih =>
    have hlength := List.length_filterMap_le f l
    cases hb : f b with
    | none =>
      rw [List.filterMap_cons_none hb]
      constructor
      · intro h
        rw [h,List.length_cons] at hlength
        omega
      · intro h
        exact absurd (hb.symm.trans (h b (by simp))) (by simp)
    | some b' =>
      rw [List.filterMap_cons_some hb,List.cons.injEq,ih,List.forall_mem_cons,hb, Option.some.injEq]

def undisturbed : Value → Bool
  | .str text => !containsInjection text
  | .dict entries =>
    if isRole "tool" entries then true
    else match (lookup "content" entries).getD (.str []) with
      | .str text => !containsInjection text
      | .list items => !items.isEmpty && items.all fun item => !(partText item).any containsInjection
      | _ => true
  | _ => true

lemma itemsChange_eq_false {items : List Value} :
    itemsChange items = false ↔ ∀ item ∈ items, (partText item).any containsInjection = false := by
  unfold itemsChange
  rw [List.any_eq_false]
  refine forall₂_congr fun item _ => ?_
  cases partText item with
  | none => simp
  | some text =>
    rw [Option.any_some,Option.any_some]
    cases hfound : containsInjection text with
    | false => simp
    | true => simp [cleanText_ne hfound]

lemma cleanMessage_eq_some (message : Value) :
    cleanMessage message = some message ↔ undisturbed message = true := by
  cases message with
  | str text =>
    unfold cleanMessage undisturbed
    rw [cleanedText_eq_some fun t ht => Value.str.inj ht]
    simp
  | dict entries =>
    unfold cleanMessage undisturbed
    dsimp only
    by_cases htool : isRole "tool" entries = true
    · rw [if_pos htool,if_pos htool]
      simp
    rw [if_neg htool,if_neg htool]
    cases hcontent : (lookup "content" entries).getD (.str []) with
    | str text =>
      dsimp only
      rw [cleanedText_eq_some]
      · simp
      · intro t ht
        rw [lookup_of_withEntry ht] at hcontent
        exact Value.str.inj hcontent
    | list items =>
      dsimp only
      have hself : items.filterMap cleanItem = items ↔
          ∀ item ∈ items, (partText item).any containsInjection = false := by
        rw [filterMap_eq_self]
        exact forall₂_congr fun item _ => cleanItem_eq_some item
      have hquiet : (items.all fun item => !(partText item).any containsInjection) = true ↔
          ∀ item ∈ items, (partText item).any containsInjection = false := by
        rw [List.all_eq_true]
        exact forall₂_congr fun item _ => by simp
      rw [Bool.and_eq_true,hquiet]
      constructor
      · intro h
        by_cases hnone : (items.filterMap cleanItem).isEmpty = true
        · rw [if_pos hnone] at h
          cases h
        rw [if_neg hnone] at h
        have hclean : ∀ item ∈ items, (partText item).any containsInjection = false := by
          by_cases hchange : itemsChange items = true
          · rw [if_pos hchange] at h
            have hentry := lookup_of_withEntry (Option.some.inj h)
            rw [hentry] at hcontent
            exact hself.mp (Value.list.inj hcontent)
          · exact itemsChange_eq_false.mp (by simpa using hchange)
        rw [hself.mpr hclean] at hnone
        exact ⟨by simpa using hnone,hclean⟩
      · rintro ⟨hne,hclean⟩
        rw [hself.mpr hclean,if_neg (by simpa using hne),
          if_neg (by rw [itemsChange_eq_false.mpr hclean]; simp)]
    | _ => simp
  | _ => simp [cleanMessage,undisturbed]

section Contexts
variable (json : JsonDecoder)

variable (contexts : List Value)

def NoPairs : Prop :=
  contexts.IsChain fun assistant tool => isVerifiedFakeToolPair json assistant tool = false

lemma removePairs_sublist : (removePairs json contexts).Sublist contexts := by
  fun_induction removePairs json contexts with
  | case1 assistant tool rest hpair ih => exact (ih.cons tool).cons assistant
  | case2 assistant tool rest hpair ih => exact ih.cons_cons assistant
  | case3 rest hrest => exact List.Sublist.refl _

lemma removePairs_eq_self : removePairs json contexts = contexts ↔ NoPairs json contexts := by
  unfold NoPairs
  fun_induction removePairs json contexts with
  | case1 assistant tool rest hpair ih =>
    have hlength := (removePairs_sublist json rest).length_le
    rw [List.isChain_cons_cons]
    constructor
    · intro h
      rw [h,List.length_cons,List.length_cons] at hlength
      omega
    · intro h
      rw [hpair] at h
      exact absurd h.1 (by simp)
  | case2 assistant tool rest hpair ih =>
    rw [List.cons.injEq,ih,List.isChain_cons_cons]
    simp only [true_and,Bool.not_eq_true] at hpair ⊢
    simp [hpair]
  | case3 rest hrest =>
    cases rest with
    | nil => simp
    | cons a rest =>
      cases rest with
      | nil => simp
      | cons b rest => exact absurd rfl (hrest a b rest)

/-- A replayed call at the end goes without the message before it, which it does not answer. -/
theorem removePairs_append {contexts : List Value} {assistant tool : Value}
    (hpair : isVerifiedFakeToolPair json assistant tool = true)
    (hfirst : ∀ m, isVerifiedFakeToolPair json m assistant = false) :
    removePairs json (contexts++[assistant,tool]) = removePairs json contexts := by
  fun_induction removePairs json contexts with
  | case1 a t rest h ih =>
    rw [List.cons_append,List.cons_append,removePairs,if_pos h,ih]
  | case2 a t rest h ih =>
    rw [List.cons_append,List.cons_append,removePairs,if_neg h]
    rw [List.cons_append] at ih
    rw [ih]
  | case3 rest hrest =>
    cases rest with
    | nil =>
      rw [List.nil_append,removePairs,if_pos hpair]
      rfl
    | cons a rest =>
      cases rest with
      | nil =>
        rw [List.cons_append,List.nil_append,removePairs,if_neg (by simp [hfirst a]),removePairs, if_pos hpair]
        rfl
      | cons b rest => exact absurd rfl (hrest a b rest)

/-- The contexts come back exactly if every message is kept and no two are a replayed call. -/
theorem cleanContexts_eq : removePairs json (contexts.filterMap cleanMessage) = contexts ↔
      (∀ m ∈ contexts, undisturbed m = true) ∧ NoPairs json contexts := by
  have hself : contexts.filterMap cleanMessage = contexts ↔
      ∀ m ∈ contexts, undisturbed m = true := by
    rw [filterMap_eq_self]
    exact forall₂_congr fun m _ => cleanMessage_eq_some m
  constructor
  · intro h
    have hsub := removePairs_sublist json (contexts.filterMap cleanMessage)
    have hshort := List.length_filterMap_le cleanMessage contexts
    have hlength := congrArg List.length h
    have hle := hsub.length_le
    have hsame := hsub.eq_of_length (by omega)
    have hkept : contexts.filterMap cleanMessage = contexts := hsame.symm.trans h
    rw [hkept] at h
    exact ⟨hself.mp hkept,(removePairs_eq_self json contexts).mp h⟩
  · rintro ⟨hkept,hpairs⟩
    rw [hself.mpr hkept]
    exact (removePairs_eq_self json contexts).mpr hpairs

variable (id : HexId)

lemma cleanMessage_fakeAssistant (query : Text) :
    cleanMessage (fakeAssistant id query) = some (fakeAssistant id query) := by
  simp [cleanMessage,fakeAssistant,isRole,lookup]

lemma cleanMessage_fakeTool (payload : Text) :
    cleanMessage (fakeTool id payload) = some (fakeTool id payload) := by
  simp [cleanMessage,fakeTool,isRole,lookup]

lemma not_pair_fakeAssistant (query : Text) (m : Value) :
    isVerifiedFakeToolPair json m (fakeAssistant id query) = false := by
  cases m with
  | dict entries =>
    have hrole : isRole "tool" [("role",Value.str "assistant".toList),("content",.none),
        ("tool_calls",.list [.dict [("id",.str (fakeCallId id)),("type",.str "function".toList),
          ("function",.dict [("name",.str fakeToolCallName),
            ("arguments",.str (toolArguments query))])]])] = false := by
      simp [isRole,lookup]
    simp only [isVerifiedFakeToolPair,fakeAssistant,hrole,Bool.and_false,Bool.false_and]
  | _ => rfl

lemma isCallId_fakeCallId (lengths : List ℕ) :
    isCallId lengths (fakeCallId id) = lengths.contains 32 := by
  have hstart : fakeToolCallIdPrefix.isPrefixOf (fakeCallId id) = true := by
    rw [List.isPrefixOf_iff_prefix]
    exact List.prefix_append _ _
  have hlength : (fakeCallId id).length - fakeToolCallIdPrefix.length = 32 := by
    unfold fakeCallId
    rw [List.length_append,Nat.add_sub_cancel_left]
    exact id.length
  unfold isCallId
  rw [hstart,hlength]
  unfold fakeCallId
  rw [List.drop_left,id.hex]
  simp

lemma hasEnvelope_protect (payload : Text) : hasEnvelope (protect payload) = true := by
  have hstart : findIndex verifiedHeader (protect payload) = some 0 := by
    have h := @findIndex_first Char _ '<' "memora-untrusted-memory>".toList []
      (envelopeBody payload++verifiedFooter) (by decide) (by decide)
    rw [protect_eq]
    exact h
  have hend : findIndex verifiedFooter (envelopeBody payload++verifiedFooter) ≠ none := by
    rw [Ne,findIndex_eq_none,not_not]
    exact (List.suffix_append _ _).isInfix
  unfold hasEnvelope
  rw [hstart]
  dsimp only
  rw [Nat.zero_add,protect_eq,List.drop_left]
  exact Option.isSome_iff_ne_none.mpr hend

lemma pair_fake (query payload : Text) :
    isVerifiedFakeToolPair json (fakeAssistant id query) (fakeTool id (protect payload)) =
    true := by
  have hlong : isCallId [12,32] (fakeCallId id) = true := by
    rw [isCallId_fakeCallId]
    decide
  have hnew : isCallId [12] (fakeCallId id) = false := by
    rw [isCallId_fakeCallId]
    decide
  simp [isVerifiedFakeToolPair,fakeAssistant,fakeTool,answersCall,isRole,lookup,hlong,hnew,
    hasEnvelope_protect]

end Contexts

lemma matchLength_replay (payload : Text) : matchLength cleanupPatterns
    (replayText (protect payload)) =
      some (replayText (protect payload)).length := by
  let body : Text := "\ntool -> ".toList++(protect payload++['\n'])
  have hshape : replayText (protect payload) = replayHeader++(body++(replayFooter++[])) := by
    unfold replayText
    simp only [body,List.append_assoc,List.append_nil]
  have hbody : ¬replayFooter <:+: body := by
    have hnewline : '\n' ∉ replayFooter := by decide
    have hstart : body = ("\ntool -> ".toList++verifiedHeader++protectionNotice) ++
        (escape payload ++ '\n'::(verifiedFooter++['\n'])) := by
      simp only [body,protect_eq,envelopeBody,List.append_assoc,List.cons_append, List.nil_append]
    rw [hstart,replayFooter_eq]
    intro hin
    obtain ⟨u,y,hsplit⟩ := infix_append_of_head_not_mem (by decide) hin
    rw [List.append_assoc,← replayFooter_eq] at hsplit
    rcases split_at_sep hnewline hsplit with ⟨w,hleft,-⟩ | ⟨u',-,hright⟩
    · exact not_infix_escape_replayFooter payload ⟨u,w,by rw [hleft,List.append_assoc]⟩
    · exact absurd ⟨u',y,by rw [hright,List.append_assoc]⟩ fixed_lines_apart.2.2.1
  have hlength : (replayText (protect payload)).length = (replayHeader++(body++replayFooter)).length := by
    rw [hshape,List.append_nil]
  rw [hlength,hshape]
  exact @matchLength_envelope Char _ _ [] [(verifiedHeader,verifiedFooter),
    (memoryInjectionHeader,memoryInjectionFooter)] _ _ _ _ _ replayFooter_eq (by decide)
    hbody (by simp)

lemma cleanMessage_replay (payload : Text) : cleanMessage (replayMessage (protect payload)) =
    none := by
  have hmatch := matchLength_replay payload
  have hfound : containsInjection (replayText (protect payload)) = true := by
    have hshape : replayText (protect payload) = '['::("DeepSeekV4-FakeToolCall-Replay]".toList ++
        "\ntool -> ".toList++protect payload++['\n']++replayFooter) := rfl
    rw [hshape] at hmatch ⊢
    exact occurs_of_match (by rw [hmatch]; rfl)
  have hempty : cleanText (replayText (protect payload)) = [] := by
    unfold cleanText
    rw [removeAll_match hmatch (cleanupPatterns_separated.match_pos hmatch),List.drop_length]
    rfl
  simp [cleanMessage,replayMessage,isRole,lookup,cleanedText,hfound,hempty]

def messageTexts : Value → List Text
  | .str text => [text]
  | .dict entries =>
    match lookup "content" entries with
    | some (.str text) => [text]
    | some (.list items) => items.filterMap partText
    | _ => []
  | _ => []

def requestTexts (req : ProviderRequest) : List Text :=
  req.prompt.toList++req.extraUserContentParts.filterMap ContentPart.text ++
  req.contexts.flatMap messageTexts

/-- Equal up to surrounding whitespace and collapsed blank lines. -/
def SamePrompt : Option Text → Option Text → Prop
  | some a, some b => normalise a = normalise b
  | none, none => True
  | _, _ => False

structure RoundTrips (req cleaned : ProviderRequest) : Prop where
  contexts : cleaned.contexts = req.contexts
  parts : cleaned.extraUserContentParts = req.extraUserContentParts
  prompt : SamePrompt cleaned.prompt req.prompt

structure Recoverable (json : JsonDecoder) (req : ProviderRequest) (delivery : DeliveryMode)
    (payload : Text) : Prop where
  messages : ∀ m ∈ req.contexts, undisturbed m = true
  pairs : NoPairs json req.contexts
  parts : ∀ part ∈ req.extraUserContentParts, keepsPart part = true
  prompt : ∀ p, req.prompt = some p → containsInjection p = false
  present : delivery = .userMessageBefore ∨ delivery = .userMessageAfter → req.prompt.isSome = true
  unclosed : delivery = .userMessageAfter → ∀ p, req.prompt = some p →
    ¬(memoryInjectionHeader <:+: p ∧ memoryInjectionFooter <:+: protect payload)

lemma normalise_cleanPrompt (prompt : Text) :
    normalise (cleanPrompt prompt) = normalise prompt ↔ containsInjection prompt = false := by
  unfold cleanPrompt
  cases hfound : containsInjection prompt with
  | false => simp
  | true =>
    rw [if_pos rfl]
    change normalise (normalise _) = _ ↔ _
    rw [normalise_idempotent]
    constructor
    · intro h
      exact (containsInjection_of_same h).symm.trans hfound |>.symm
    · simp

lemma samePrompt_clean (prompt : Option Text) : SamePrompt (prompt.map cleanPrompt) prompt ↔
      ∀ p, prompt = some p → containsInjection p = false := by
  cases prompt with
  | none => simp [SamePrompt]
  | some p =>
    simp only [Option.map_some,SamePrompt,Option.some.injEq,forall_eq']
    exact normalise_cleanPrompt p

section Delivered
variable {req req' : ProviderRequest} {delivery : DeliveryMode} {payload query : Text} {id : HexId}
  (h : delivered req delivery (protect payload) query id = some req')
include h

lemma delivered_contexts (json : JsonDecoder) :
    removePairs json (req'.contexts.filterMap cleanMessage) =
      removePairs json (req.contexts.filterMap cleanMessage) := by
  cases delivery with
  | auto => exact absurd h (by simp [delivered])
  | fakeToolCall =>
    obtain rfl := Option.some.inj h
    dsimp only
    rw [List.filterMap_append,List.filterMap_cons_some (cleanMessage_fakeAssistant id query),
      List.filterMap_cons_some (cleanMessage_fakeTool id _),List.filterMap_nil]
    exact removePairs_append json (pair_fake json id query payload) (not_pair_fakeAssistant json id query)
  | fakeToolCallDeepseekV4 =>
    obtain rfl := Option.some.inj h
    dsimp only
    rw [List.filterMap_append,List.filterMap_cons_none (cleanMessage_replay payload),
      List.filterMap_nil,List.append_nil]
  | _ =>
    obtain rfl := Option.some.inj h
    rfl

lemma delivered_parts :
    req'.extraUserContentParts.filter keepsPart = req.extraUserContentParts.filter keepsPart := by
  cases delivery with
  | auto => exact absurd h (by simp [delivered])
  | extraUserContent =>
    obtain rfl := Option.some.inj h
    have hfound := containsInjection_protect payload []
    rw [List.append_nil] at hfound
    dsimp only
    rw [List.filter_append,List.filter_cons_of_neg (by simp [keepsPart,hfound]),List.filter_nil,
      List.append_nil]
  | _ =>
    obtain rfl := Option.some.inj h
    rfl

/-- The prompt comes back exactly under the conditions on it. -/
theorem delivered_prompt (hfree : ∀ p, req.prompt = some p → BoundaryFree p) :
    SamePrompt (req'.prompt.map cleanPrompt) req.prompt ↔
      (∀ p, req.prompt = some p → containsInjection p = false) ∧
      (delivery = .userMessageBefore ∨ delivery = .userMessageAfter → req.prompt.isSome = true) ∧
      (delivery = .userMessageAfter → ∀ p, req.prompt = some p →
        ¬(memoryInjectionHeader <:+: p ∧ memoryInjectionFooter <:+: protect payload)) := by
  cases delivery with
  | auto => exact absurd h (by simp [delivered])
  | userMessageBefore =>
    obtain rfl := Option.some.inj h
    dsimp only
    cases hp : req.prompt with
    | none => simp [SamePrompt]
    | some p =>
      have hback := cleanPrompt_before payload p
      simp only [Option.map_some,SamePrompt,shownPrompt,Option.getD_some,hback,
        Option.some.injEq,forall_eq',Option.isSome_some,implies_true,reduceCtorEq, false_implies,and_true]
      exact ⟨containsInjection_of_same,fun h => by rw [removeAll_of_clean h]⟩
  | userMessageAfter =>
    obtain rfl := Option.some.inj h
    dsimp only
    cases hp : req.prompt with
    | none => simp [SamePrompt]
    | some p =>
      simp only [Option.map_some,SamePrompt,shownPrompt,Option.getD_some,Option.some.injEq,
        forall_eq',Option.isSome_some,implies_true,true_and,forall_const]
      exact cleanPrompt_after payload (hfree p hp)
  | _ =>
    obtain rfl := Option.some.inj h
    dsimp only
    rw [samePrompt_clean]
    simp

end Delivered

/-- For texts without reserved boundaries, cleaning undoes a delivery exactly if the request is
recoverable. -/
theorem round_trip_iff (json : JsonDecoder) {req req' : ProviderRequest} {delivery : DeliveryMode}
    {payload query : Text} {id : HexId} (hfree : ∀ text ∈ requestTexts req, BoundaryFree text)
    (hdelivered : delivered req delivery (protect payload) query id = some req') :
    RoundTrips req (cleanRequest json req') ↔ Recoverable json req delivery payload := by
  have hprompts : ∀ p, req.prompt = some p → BoundaryFree p := by
    intro p hp
    exact hfree p (by simp [requestTexts,hp])
  have hcontexts : (cleanRequest json req').contexts = req.contexts ↔
      (∀ m ∈ req.contexts, undisturbed m = true) ∧ NoPairs json req.contexts := by
    rw [← cleanContexts_eq json req.contexts,← delivered_contexts hdelivered json]
    rfl
  have hparts : (cleanRequest json req').extraUserContentParts = req.extraUserContentParts ↔
      ∀ part ∈ req.extraUserContentParts, keepsPart part = true := by
    rw [← List.filter_eq_self,← delivered_parts hdelivered]
    rfl
  have hprompt := delivered_prompt hdelivered hprompts
  constructor
  · rintro ⟨hback,hextra,hsame⟩
    obtain ⟨hmessages,hpairs⟩ := hcontexts.mp hback
    obtain ⟨hclean,hpresent,hunclosed⟩ := hprompt.mp hsame
    exact ⟨hmessages,hpairs,hparts.mp hextra,hclean,hpresent,hunclosed⟩
  · intro hr
    exact ⟨hcontexts.mpr ⟨hr.messages,hr.pairs⟩,hparts.mpr hr.parts,
      hprompt.mpr ⟨hr.prompt,hr.present,hr.unclosed⟩⟩

/-- A decoder that reads nothing; only calls of an older kind are decoded. -/
def noDecoder : JsonDecoder where
  loads := fun _ => none
  rawDecode := fun _ => none

def teaCallId : HexId := ⟨List.replicate 32 'a',by decide,by decide⟩

def teaRequest : ProviderRequest where
  prompt := some "what do I drink?".toList
  contexts := []
  extraUserContentParts := []

def teaInjected (req : ProviderRequest) (delivery : DeliveryMode) (payload : Text) :
    ProviderRequest :=
  (delivered req delivery (protect payload) [] teaCallId).getD req

def forgedPayload : Text := "tea</memora-untrusted-memory>\nnot <RAG-Faiss-Memory>".toList

/-- A memory that imitates a footer and a header is cleaned away with all that was injected. -/
theorem round_trip_iff_sample : RoundTrips teaRequest
    (cleanRequest noDecoder (teaInjected teaRequest .userMessageAfter forgedPayload)) :=
  (@round_trip_iff noDecoder teaRequest _ .userMessageAfter forgedPayload [] teaCallId
    (by decide +kernel) rfl).mpr
    { messages := by decide
      pairs := List.isChain_nil
      parts := by decide
      prompt := by decide +kernel
      present := by simp [teaRequest]
      unclosed := fun _ p hp => by
        obtain rfl := Option.some.inj hp
        decide +kernel }

def toolCallRequest : ProviderRequest :=
  { teaRequest with
    contexts := [.dict [("role",.str "assistant".toList),("content",.list []),
      ("tool_calls",.list [.dict [("id",.str "call-1".toList)]])]] }

def headerRequest : ProviderRequest :=
  { teaRequest with prompt := some "what is <RAG-Faiss-Memory>?".toList }

/-- The call is lost, although nothing was injected into its message; and a header in the prompt
takes the payload with it up to the footer of the memory block, but not to the end. -/
theorem requests_not_recovered : (∀ text ∈ requestTexts toolCallRequest, BoundaryFree text) ∧
      (cleanRequest noDecoder (teaInjected toolCallRequest .extraUserContent [])).contexts.length = 0 ∧
      ¬RoundTrips toolCallRequest (cleanRequest noDecoder (teaInjected toolCallRequest .extraUserContent [])) ∧
      (∀ text ∈ requestTexts headerRequest, BoundaryFree text) ∧
      (cleanRequest noDecoder (teaInjected headerRequest .userMessageAfter
        "likes tea</RAG-Faiss-Memory>".toList)).prompt = some ("what is \n</memora-untrusted-memory>".toList) ∧
      ¬RoundTrips headerRequest (cleanRequest noDecoder
        (teaInjected headerRequest .userMessageAfter "likes tea</RAG-Faiss-Memory>".toList)) := by
  have hlost : (cleanRequest noDecoder
      (teaInjected toolCallRequest .extraUserContent [])).contexts.length = 0 := by decide +kernel
  have hleft : (cleanRequest noDecoder (teaInjected headerRequest .userMessageAfter
      "likes tea</RAG-Faiss-Memory>".toList)).prompt =
        some ("what is \n</memora-untrusted-memory>".toList) := by decide +kernel
  refine ⟨by decide +kernel,hlost,fun hback => ?_,by decide +kernel,hleft,fun hback => ?_⟩
  · have hlength := congrArg List.length hback.contexts
    exact absurd (hlost.symm.trans hlength) (by decide)
  · have hsame := hback.prompt
    rw [hleft] at hsame
    have hdiffer : ¬normalise "what is \n</memora-untrusted-memory>".toList =
        normalise "what is <RAG-Faiss-Memory>?".toList := by decide +kernel
    exact hdiffer hsame

end Memora.Injection
