import Memora.InjectionExecutor

/-! Earlier injections are taken out of the parts, the prompt and the contexts of a request, and
replayed tool calls out of its contexts. -/
namespace Memora.Injection
open TextPatterns

/-- The alternatives of `_INJECTION_CLEANUP_PATTERN`. -/
def cleanupPatterns : List (Text × Text) :=
  [(replayHeader,replayFooter),(verifiedHeader,verifiedFooter),
    (memoryInjectionHeader,memoryInjectionFooter)]

def containsInjection (value : Text) : Bool := occurs cleanupPatterns value

/-- `str.strip`. -/
def strip (s : Text) : Text :=
  (s.dropWhile Canonical.pythonIsSpace).rdropWhile Canonical.pythonIsSpace

/-- The scan behind `collapse`; the number counts the newlines just before. -/
def collapseFrom : ℕ → Text → Text
  | _, [] => []
  | run, c::s =>
    if c = '\n' then
      if run < 2 then '\n'::collapseFrom (run+1) s else collapseFrom (run+1) s
    else c::collapseFrom 0 s

def collapse (s : Text) : Text := collapseFrom 0 s

def keepsPart (part : ContentPart) : Bool := !part.text.any containsInjection

def cleanPrompt (prompt : Text) : Text :=
  if containsInjection prompt then strip (collapse (removeAll cleanupPatterns prompt)) else prompt

def cleanText (text : Text) : Text := collapse (strip (removeAll cleanupPatterns text))

/-- `dict` with one entry set. -/
def withEntry (key : String) (value : Value) (entries : List (String × Value)) : Value :=
  .dict (Dict.assign key value entries)

/-- The value after its text was cleaned; nothing where no text is left. -/
def cleanedText (whole : Value) (text : Text) (rebuilt : Text → Value) : Option Value :=
  if !containsInjection text then some whole
  else if cleanText text = [] then none
  else if cleanText text = text then some whole
  else some (rebuilt (cleanText text))

def partText : Value → Option Text
  | .dict entries =>
    match lookup "type" entries, (lookup "text" entries).getD (.str []) with
    | some (.str kind), .str text => if kind = "text".toList then some text else none
    | _, _ => none
  | _ => none

def cleanItem : Value → Option Value
  | .dict entries =>
    match partText (.dict entries) with
    | some text => cleanedText (.dict entries) text fun t => withEntry "text" (.str t) entries
    | none => some (.dict entries)
  | item => some item

def itemsChange (items : List Value) : Bool :=
  items.any fun item => (partText item).any fun text =>
    containsInjection text && cleanText text ≠ text

def isRole (role : String) (entries : List (String × Value)) : Bool :=
  match lookup "role" entries with
  | some (.str text) => text = role.toList
  | _ => false

/-- One message of the contexts; nothing where it is left out. -/
def cleanMessage : Value → Option Value
  | .str text => cleanedText (.str text) text .str
  | .dict entries =>
    if isRole "tool" entries then some (.dict entries)
    else match (lookup "content" entries).getD (.str []) with
      | .str text => cleanedText (.dict entries) text fun t => withEntry "content" (.str t) entries
      | .list items =>
        -- an empty list of parts leaves the message out, whether or not anything was removed
        if (items.filterMap cleanItem).isEmpty then none
        else if itemsChange items then
          some (withEntry "content" (.list (items.filterMap cleanItem)) entries)
        else some (.dict entries)
      | _ => some (.dict entries)
  | message => some message

def removeInjectedMemories (req : ProviderRequest) : ProviderRequest :=
  { req with
    extraUserContentParts := req.extraUserContentParts.filter keepsPart
    prompt := req.prompt.map cleanPrompt
    contexts := req.contexts.filterMap cleanMessage }

structure JsonDecoder where
  loads : Text → Option Value
  rawDecode : Text → Option Value

def isCallId (lengths : List ℕ) (text : Text) : Bool :=
  fakeToolCallIdPrefix.isPrefixOf text && (text.drop fakeToolCallIdPrefix.length).all isHexDigit &&
    lengths.contains (text.length - fakeToolCallIdPrefix.length)

/-- `set(value) == keys`. -/
def keysAre (keys : List String) (entries : List (String × Value)) : Bool :=
  entries.all (fun e => keys.contains e.1) && keys.all fun k => entries.any fun e => e.1 = k

def legacyFakeResultKeys : List String :=
  ["id","content","score","importance","session_id","persona_id","create_time", "last_access_time"]

def visibleFakeResultKeys : List String := ["content","score","importance"]

def isFakeToolResult : Value → Bool
  | .dict entries =>
    (match lookup "content" entries with | some (.str _) => true | _ => false) &&
      (keysAre legacyFakeResultKeys entries || keysAre visibleFakeResultKeys entries ||
        keysAre (visibleFakeResultKeys++["derived_projections"]) entries)
  | _ => false

def legacyPayloadValid (entries : List (String × Value)) (expectedQuery : Text) : Bool :=
  match lookup "query" entries, lookup "applied_filters" entries, lookup "results" entries,
    lookup "count" entries with
  | some (.str query), some (.dict filters), some (.list results), some (.int count) =>
    query = expectedQuery && keysAre ["session_filtered","persona_filtered"] filters &&
      filters.all (fun e => match e.2 with | .bool _ => true | _ => false) &&
      !results.isEmpty && decide (count = results.length) && results.all isFakeToolResult
  | _, _, _, _ => false

section Pairs
variable (json : JsonDecoder)

def legacyPayload (value : Text) : Option (List (String × Value)) :=
  value.tails.findSome? fun rest =>
    if rest.head? = some '\x7b' then
      match json.rawDecode rest with
      | some (.dict entries) => if (lookup "results" entries).isSome then some entries else none
      | _ => none
    else none

def legacyFakeToolPayload (value expectedQuery : Text) : Bool :=
  (legacyPayload json value).any fun entries => legacyPayloadValid entries expectedQuery

def expectedQuery (function : List (String × Value)) : Option Text :=
  match (lookup "arguments" function).getD (.str []) with
  | .str arguments =>
    match json.loads arguments with
    | some (.dict entries) => match lookup "query" entries with
      | some (.str query) => some query
      | _ => none
    | _ => none
  | _ => none

def hasEnvelope (content : Text) : Bool :=
  match findIndex verifiedHeader content with
  | none => false
  | some start => (findIndex verifiedFooter (content.drop (start+verifiedHeader.length))).isSome

def answersCall (callId : Text) (function tool : List (String × Value)) : Bool :=
  match lookup "content" tool, lookup "tool_call_id" tool, lookup "name" tool with
  | some (.str content), some (.str answered), some (.str name) =>
    answered = callId && name = fakeToolCallName && (if isCallId [12] callId then
        (expectedQuery json function).any fun query => legacyFakeToolPayload json content query
      else hasEnvelope content)
  | _, _, _ => false

def isVerifiedFakeToolPair : Value → Value → Bool
  | .dict assistant, .dict tool =>
    isRole "assistant" assistant && isRole "tool" tool &&
      match lookup "tool_calls" assistant with
      | some (.list [.dict call]) =>
        match lookup "id" call, lookup "function" call with
        | some (.str callId), some (.dict function) =>
          isCallId [12,32] callId && (match lookup "name" function with
              | some (.str name) => name = fakeToolCallName
              | _ => false) &&
            answersCall json callId function tool
        | _, _ => false
      | _ => false
  | _, _ => false

/-- The scan of `remove_fake_tool_call_from_context`. -/
def removePairs : List Value → List Value
  | assistant::tool::rest =>
    if isVerifiedFakeToolPair json assistant tool then removePairs rest
    else assistant::removePairs (tool::rest)
  | rest => rest

def cleanRequest (req : ProviderRequest) : ProviderRequest :=
  let cleaned := removeInjectedMemories req
  { cleaned with contexts := removePairs json cleaned.contexts }

end Pairs

end Memora.Injection
