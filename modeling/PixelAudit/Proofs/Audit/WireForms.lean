/-
The two forms in which the parameters of an event arrive.

An export has the tokens of an event joined by ampersands, perhaps after question marks, or as a JSON list. Blanks
around either form are dropped. A token without an ampersand stays whole when the query string is cut, and one that is
not empty is kept; so from both forms the same tokens are read, one after the other, up to the first that cannot be
decoded.

Tokens that are percent-encoded have none of the characters that matter in a query string, whatever the parameters
are.

Main results: `parseParams_query` and `parseParams_list` (the tokens that are read from each form),
`parseParams_encoded_params` (encoded parameters are read back from both), `parseParams_forms_agree` (parameters,
verdict and examples do not depend on the form).
-/
import PixelAudit.Audit.Validator
import PixelAudit.Proofs.Definition.Accepted
import PixelAudit.Proofs.Json.TextList
import PixelAudit.Proofs.Text.PercentCoding
import PixelAudit.Proofs.Text.Segments
import Mathlib.Tactic

namespace PixelAudit

open Text (isBlank joined)

/-! ## Blanks and separators -/

namespace Text

/-- blanks are dropped on both sides of a text that neither begins nor ends with one -/
theorem trim_padded {before body after : List Char} (hbefore : ∀ c ∈ before, isBlank c = true)
    (hafter : ∀ c ∈ after, isBlank c = true) (hfirst : ∀ c ∈ body.head?, isBlank c = false)
    (hlast : ∀ c ∈ body.getLast?, isBlank c = false) :
    trim (String.ofList (before ++ body ++ after)) = String.ofList body := by
  rw [trim, String.toList_ofList, trimChars, dropEndWhile, List.append_assoc, List.dropWhile_append_of_pos hbefore]
  cases body with
  | nil =>
    rw [List.nil_append, List.dropWhile_eq_nil_iff.2 hafter, List.reverse_nil, List.dropWhile_nil, List.reverse_nil]
  | cons c cs =>
    have hkeep : ¬ isBlank c = true := Bool.not_eq_true _ ▸ hfirst c rfl
    have hafter' : ∀ d ∈ after.reverse, isBlank d = true := fun d hd => hafter d (List.mem_reverse.1 hd)
    have hend : (c :: cs).reverse.dropWhile isBlank = (c :: cs).reverse := by
      rw [List.dropWhile_eq_self_iff]
      intro hl hblank
      rw [← List.head_eq_getElem_zero (List.length_pos_iff.1 hl)] at hblank
      rw [hlast _ (by rw [← List.head?_reverse]; exact List.head_mem_head? _)] at hblank
      cases hblank
    rw [List.cons_append, List.dropWhile_cons_of_neg hkeep, ← List.cons_append, List.reverse_append,
      List.dropWhile_append_of_pos hafter', hend, List.reverse_reverse]

/-- a text is cut at the first separator -/
theorem cut?_append {separator : Char} {before : String} (h : separator ∉ before.toList) (after : String) :
    cut? separator (before ++ String.singleton separator ++ after) = some (before, after) := by
  have hkeep : ∀ c ∈ before.toList, (c != separator) = true := by
    intro c hc
    rw [bne_iff_ne]
    rintro rfl
    exact h hc
  rw [cut?, String.toList_append, String.toList_append, String.toList_singleton, List.append_assoc,
    List.span_eq_takeWhile_dropWhile, List.takeWhile_append_of_pos hkeep, List.dropWhile_append_of_pos hkeep]
  simp

end Text

namespace Event

/-! ## Tokens -/

/-- key and value of a token before they are decoded -/
def parts (token : String) : String × String := (Text.cut? '=' token).getD (token, "")

/-- a token whose key and value are decoded to those of the parameter -/
structure Reads (token : String) (t : ParamToken) : Prop where
  key : Text.Percent.decode (parts token).1 = .ok t.key
  value : Text.Percent.decode (parts token).2 = .ok t.value

/-- a token that cannot be decoded, by its key or, where the key can, by its value -/
inductive Refused (token : String) : EventFault → Prop
  | key {cause} (bad : Text.Percent.decode (parts token).1 = .error cause) :
      Refused token (.badEncoding (parts token).1 cause)
  | value {key cause} (good : Text.Percent.decode (parts token).1 = .ok key)
      (bad : Text.Percent.decode (parts token).2 = .error cause) : Refused token (.badEncoding (parts token).2 cause)

theorem parseToken_reads {token : String} {t : ParamToken} (h : Reads token t) : parseToken token = .ok t := by
  change (do return ⟨← decodePart (parts token).1, ← decodePart (parts token).2⟩ : Except EventFault ParamToken) = .ok t
  simp only [decodePart, h.key, h.value]
  rfl

/-- a token has a parameter, or it is refused -/
theorem parseToken_cases (token : String) :
    (∃ t, parseToken token = .ok t ∧ Reads token t) ∨
      ∃ fault, parseToken token = .error fault ∧ Refused token fault := by
  have hparse : parseToken token =
      (do return ⟨← decodePart (parts token).1, ← decodePart (parts token).2⟩ : Except EventFault ParamToken) := rfl
  cases hkey : Text.Percent.decode (parts token).1 with
  | error cause =>
    refine Or.inr ⟨_, ?_, .key hkey⟩
    simp only [hparse, decodePart, hkey]
    rfl
  | ok key =>
    cases hvalue : Text.Percent.decode (parts token).2 with
    | error cause =>
      refine Or.inr ⟨_, ?_, .value hkey hvalue⟩
      simp only [hparse, decodePart, hkey, hvalue]
      rfl
    | ok value => exact Or.inl ⟨⟨key, value⟩, parseToken_reads ⟨hkey, hvalue⟩, hkey, hvalue⟩

/-- what tokens are read to: all their parameters in order, or the fault of the first that is refused -/
inductive Outcome (tokens : List String) : Except EventFault (List ParamToken) → Prop
  | read {params} (all : List.Forall₂ Reads tokens params) : Outcome tokens (.ok params)
  | refused {front token back params fault} (split : tokens = front ++ token :: back)
      (before : List.Forall₂ Reads front params) (bad : Refused token fault) : Outcome tokens (.error fault)

theorem outcome_mapM (tokens : List String) : Outcome tokens (tokens.mapM parseToken) := by
  induction tokens with
  | nil => exact .read .nil
  | cons token tokens ih =>
    rw [List.mapM_cons]
    rcases parseToken_cases token with ⟨t, hparse, ht⟩ | ⟨fault, hparse, hfault⟩
    · rw [hparse]
      cases hrest : tokens.mapM parseToken with
      | ok params =>
        rw [hrest] at ih
        cases ih with
        | read hall => exact .read (.cons ht hall)
      | error fault =>
        rw [hrest] at ih
        cases ih with
        | @refused front bad back params _ hsplit hbefore hbad =>
          exact .refused (congrArg (token :: ·) hsplit) (.cons ht hbefore) hbad
    · rw [hparse]
      have hsplit : token :: tokens = [] ++ token :: tokens := rfl
      exact .refused hsplit .nil hfault

/-! ## Query strings -/

/-- tokens that can be written as a query string: no cut falls into one, and their joint begins like no other form -/
structure Joinable (tokens : List String) : Prop where
  nonempty : ∀ token ∈ tokens, token ≠ ""
  free : ∀ token ∈ tokens, '&' ∉ token.toList
  first : ∀ c ∈ (joined '&' tokens).toList.head?, isBlank c = false ∧ c ≠ '[' ∧ c ≠ '?'
  last : ∀ c ∈ (joined '&' tokens).toList.getLast?, isBlank c = false

/-- the query string of the tokens, after so many question marks -/
def queryText (marks : Nat) (tokens : List String) : List Char := List.replicate marks '?' ++ (joined '&' tokens).toList

variable {tokens : List String}

/-- cut at the ampersands, the query string has its tokens again -/
theorem queryTokens_queryText (h : Joinable tokens) (marks : Nat) :
    queryTokens (String.ofList (queryText marks tokens)) = tokens := by
  have hmarks : ∀ c ∈ List.replicate marks '?', (c == '?') = true := by
    intro c hc
    rw [List.eq_of_mem_replicate hc, beq_self_eq_true]
  have hbody : (joined '&' tokens).toList.dropWhile (· == '?') = (joined '&' tokens).toList := by
    cases hchars : (joined '&' tokens).toList with
    | nil => rfl
    | cons c cs =>
      apply List.dropWhile_cons_of_neg
      rw [beq_iff_eq]
      exact (h.first c (by rw [hchars]; rfl)).2.2
  rw [queryTokens, String.toList_ofList, queryText, List.dropWhile_append_of_pos hmarks, hbody, String.ofList_toList]
  by_cases hnil : tokens = []
  · subst hnil
    rfl
  · rw [Text.pieces_joined '&' tokens h.free hnil, List.filter_eq_self]
    intro token htoken
    exact decide_eq_true (h.nonempty token htoken)

section padded

variable {before after : List Char} (hbefore : ∀ c ∈ before, isBlank c = true) (hafter : ∀ c ∈ after, isBlank c = true)

include hbefore hafter

/-- the tokens of a query string are read one by one -/
theorem parseParams_query (h : Joinable tokens) (marks : Nat) :
    parseParams (String.ofList (before ++ queryText marks tokens ++ after)) = tokens.mapM parseToken := by
  have hfirst : ∀ c ∈ (queryText marks tokens).head?, isBlank c = false ∧ c ≠ '[' := by
    intro c hc
    cases marks with
    | zero => exact ⟨(h.first c hc).1, (h.first c hc).2.1⟩
    | succ marks =>
      obtain rfl : '?' = c := by simpa [queryText, List.replicate_succ] using hc
      decide
  have hlast : ∀ c ∈ (queryText marks tokens).getLast?, isBlank c = false := by
    intro c hc
    rw [queryText, List.getLast?_append] at hc
    cases hend : (joined '&' tokens).toList.getLast? with
    | some d =>
      rw [hend] at hc
      obtain rfl : d = c := by simpa using hc
      exact h.last d hend
    | none =>
      rw [hend] at hc
      rw [List.eq_of_mem_replicate (List.mem_of_getLast? hc)]
      decide
  have htrim := Text.trim_padded hbefore hafter (fun c hc => (hfirst c hc).1) hlast
  have hlist : ¬ (queryText marks tokens).head? = some '[' := fun hhead => (hfirst '[' hhead).2 rfl
  unfold parseParams
  simp only [htrim, String.toList_ofList, if_neg hlist, queryTokens_queryText h]
  split_ifs with hempty
  · have hnone := queryTokens_queryText h marks
    rw [hempty] at hnone
    rw [← hnone]
    rfl
  · rfl

/-- the tokens of a JSON list are read one by one, however the list is written -/
theorem parseParams_list {text : List Char} (h : Json.ListText tokens text) :
    parseParams (String.ofList (before ++ text ++ after)) = tokens.mapM parseToken := by
  have hread := Json.parse_listText h
  obtain ⟨rest, rfl, hitems⟩ := h
  have hclose : ∀ {first items rest}, Json.ItemsText first items rest → rest.getLast? = some ']' := by
    intro first items rest hitems
    induction hitems with
    | nil => simp
    | cons _ _ _ _ ih => simp [List.getLast?_cons, ih]
  have hfirst : ∀ c ∈ ('[' :: rest).head?, isBlank c = false := by
    intro c hc
    obtain rfl : '[' = c := by simpa using hc
    decide
  have hlast : ∀ c ∈ ('[' :: rest).getLast?, isBlank c = false := by
    intro c hc
    obtain rfl : ']' = c := by simpa [List.getLast?_cons, hclose hitems] using hc
    decide
  have hsome : String.ofList ('[' :: rest) ≠ "" := by
    intro h
    have hchars := congrArg String.toList h
    rw [String.toList_ofList] at hchars
    cases hchars
  have hentry : parseEntry ∘ Json.string = parseToken := rfl
  unfold parseParams
  simp only [Text.trim_padded hbefore hafter hfirst hlast, if_neg hsome, String.toList_ofList, List.head?_cons, if_true,
    hread, List.mapM_map, hentry]

end padded

end Event

/-! ## Encoded parameters -/

namespace ParamToken

/-- the parameter as a token, percent-encoded -/
def encode (capital : Bool) (t : ParamToken) : String :=
  Text.Percent.encode capital t.key ++ "=" ++ Text.Percent.encode capital t.value

variable (capital : Bool)

/-- the characters that matter in a query string stand in no encoded text -/
theorem isPlain_inert {c : Char} (h : Text.Percent.isPlain c = true ∨ c = '%') :
    isBlank c = false ∧ c ≠ '[' ∧ c ≠ '?' ∧ c ≠ '&' ∧ c ≠ '=' := by
  rcases h with h | rfl
  · have hascii := (Text.Percent.isPlain_ascii h).1
    induction c using Text.char_cases with
    | hascii code hcode => revert code; decide
    | hother c hc => omega
  · decide

theorem mem_encode {t : ParamToken} {c : Char} (h : c ∈ (t.encode capital).toList) :
    isBlank c = false ∧ c ≠ '[' ∧ c ≠ '?' ∧ c ≠ '&' := by
  simp only [encode, String.toList_append, List.mem_append] at h
  rcases h with (h | h) | h
  · obtain ⟨hblank, hlist, hmark, hcut, -⟩ := isPlain_inert (Text.Percent.mem_encode h)
    exact ⟨hblank, hlist, hmark, hcut⟩
  · obtain rfl : c = '=' := by simpa using h
    decide
  · obtain ⟨hblank, hlist, hmark, hcut, -⟩ := isPlain_inert (Text.Percent.mem_encode h)
    exact ⟨hblank, hlist, hmark, hcut⟩

theorem reads_encode (t : ParamToken) : Event.Reads (t.encode capital) t := by
  have hfree : '=' ∉ (Text.Percent.encode capital t.key).toList := fun h =>
    (isPlain_inert (Text.Percent.mem_encode h)).2.2.2.2 rfl
  have hparts : Event.parts (t.encode capital) =
      (Text.Percent.encode capital t.key, Text.Percent.encode capital t.value) := by
    have hmark : "=" = String.singleton '=' := rfl
    rw [Event.parts, encode, hmark, Text.cut?_append hfree]
    rfl
  constructor
  · rw [hparts]
    exact Text.Percent.decode_encode capital t.key
  · rw [hparts]
    exact Text.Percent.decode_encode capital t.value

theorem joinable_encode (params : List ParamToken) : Event.Joinable (params.map (encode capital)) := by
  have hchars : ∀ c ∈ (joined '&' (params.map (encode capital))).toList, isBlank c = false ∧ c ≠ '[' ∧ c ≠ '?' := by
    intro c hc
    rcases Text.mem_toList_joined '&' hc with rfl | ⟨token, htoken, hc⟩
    · decide
    · obtain ⟨t, -, rfl⟩ := List.mem_map.1 htoken
      obtain ⟨hblank, hlist, hmark, -⟩ := mem_encode capital hc
      exact ⟨hblank, hlist, hmark⟩
  refine ⟨?_, ?_, ?_, ?_⟩
  · intro token htoken hempty
    obtain ⟨t, -, rfl⟩ := List.mem_map.1 htoken
    have hchars := congrArg String.toList hempty
    simp [encode] at hchars
  · intro token htoken hcut
    obtain ⟨t, -, rfl⟩ := List.mem_map.1 htoken
    exact (mem_encode capital hcut).2.2.2 rfl
  · exact fun c hc => hchars c (List.mem_of_head? hc)
  · exact fun c hc => (hchars c (List.mem_of_getLast? hc)).1

theorem mapM_parseToken_encode (params : List ParamToken) :
    (params.map (encode capital)).mapM Event.parseToken = .ok params := by
  rw [except_mapM_eq_ok_iff, List.forall₂_map_left_iff, List.forall₂_same]
  exact fun t _ => Event.parseToken_reads (reads_encode capital t)

end ParamToken

namespace Event

/-- whatever the parameters are, they are read from their encoded tokens in both forms -/
theorem parseParams_encoded_params (params : List ParamToken) (capital : Bool) {before after : List Char}
    (hbefore : ∀ c ∈ before, isBlank c = true) (hafter : ∀ c ∈ after, isBlank c = true) :
    (∀ marks, parseParams (String.ofList
      (before ++ queryText marks (params.map (ParamToken.encode capital)) ++ after)) = .ok params) ∧
    (∀ text, Json.ListText (params.map (ParamToken.encode capital)) text →
      parseParams (String.ofList (before ++ text ++ after)) = .ok params) ∧
    Json.ListText (params.map (ParamToken.encode capital))
      (Json.strings (params.map (ParamToken.encode capital))).compact.toList := by
  refine ⟨?_, ?_, Json.listText_compact _⟩
  · intro marks
    rw [parseParams_query hbefore hafter (ParamToken.joinable_encode capital params),
      ParamToken.mapM_parseToken_encode]
  · intro text htext
    rw [parseParams_list hbefore hafter htext, ParamToken.mapM_parseToken_encode]

/-- an empty key, and texts with separators, a bracket and a blank, after a question mark and between blanks -/
theorem parseParams_encoded_params_two :
    queryText 1 ([⟨"", "a=b&c"⟩, ⟨"é[", " "⟩].map (ParamToken.encode true)) =
      "?=a%3Db%26c&%C3%A9%5B=%20".toList ∧
    parseParams (String.ofList ([' '] ++
      queryText 1 ([⟨"", "a=b&c"⟩, ⟨"é[", " "⟩].map (ParamToken.encode true)) ++ ['\n'])) =
      .ok [⟨"", "a=b&c"⟩, ⟨"é[", " "⟩] :=
  ⟨by decide, (parseParams_encoded_params _ true (List.forall_mem_singleton.2 (by decide))
    (List.forall_mem_singleton.2 (by decide))).1 1⟩

/-! ## Both forms of an event -/

end Event

/-- an event with its parameters as the given text -/
def RawEvent.withParams (e : RawEvent) (params : String) : RawEvent := { e with params }

namespace Validator

variable {params params' : String}

/-- nothing but what is read from the parameters counts for the verdict -/
theorem judge_withParams (h : Event.parseParams params = Event.parseParams params') (v : Validator) (e : RawEvent) :
    v.judge (e.withParams params) = v.judge (e.withParams params') := by
  simp only [judge, judgeInFamily, RawEvent.withParams, h]
  rfl

theorem step_withParams (h : Event.parseParams params = Event.parseParams params') (v : Validator) (notes : Notes)
    (e : RawEvent) : v.step notes (e.withParams params) = v.step notes (e.withParams params') := by
  rw [step, step, judge_withParams h]
  rfl

/-- an event leaves a run the same notes if its parameters are read the same -/
theorem run_withParams (h : Event.parseParams params = Event.parseParams params') (v : Validator) (notes : Notes)
    (before after : List RawEvent) (e : RawEvent) :
    v.run notes (before ++ e.withParams params :: after) = v.run notes (before ++ e.withParams params' :: after) := by
  rw [run_append, run_append]
  simp only [run, List.foldl_cons, step_withParams h]

end Validator

namespace Event

variable {tokens : List String} {text : List Char}

/-- the query string of tokens and a JSON list of them are read alike, so an event has one verdict and leaves the same
examples in both forms -/
theorem parseParams_forms_agree (hquery : Joinable tokens) (hlist : Json.ListText tokens text) :
    parseParams (joined '&' tokens) = parseParams (String.ofList text) ∧
    Outcome tokens (parseParams (joined '&' tokens)) ∧
    ∀ (v : Validator) (e : RawEvent),
      v.judge (e.withParams (joined '&' tokens)) = v.judge (e.withParams (String.ofList text)) ∧
      ∀ (notes : Notes) (before after : List RawEvent),
        v.run notes (before ++ e.withParams (joined '&' tokens) :: after) =
          v.run notes (before ++ e.withParams (String.ofList text) :: after) := by
  have hnone : ∀ c ∈ ([] : List Char), isBlank c = true := fun c hc => absurd hc List.not_mem_nil
  have hread : parseParams (joined '&' tokens) = tokens.mapM parseToken := by
    have h := parseParams_query hnone hnone hquery 0
    rwa [queryText, List.replicate_zero, List.nil_append, List.nil_append, List.append_nil, String.ofList_toList] at h
  have hread' : parseParams (String.ofList text) = tokens.mapM parseToken := by
    have h := parseParams_list hnone hnone hlist
    rwa [List.nil_append, List.append_nil] at h
  have hsame := hread.trans hread'.symm
  refine ⟨hsame, ?_, ?_⟩
  · rw [hread]
    exact outcome_mapM tokens
  · intro v e
    exact ⟨Validator.judge_withParams hsame v e, fun notes before after =>
      Validator.run_withParams hsame v notes before after e⟩

/-- in both forms the second token is refused, for the same byte -/
theorem parseParams_forms_agree_refused :
    parseParams "a=1&x=%FF" = parseParams "[\"a=1\",\"x=%FF\"]" ∧
      parseParams "a=1&x=%FF" = .error (.badEncoding "%FF" (.invalid 1 0)) := by
  have hquery : Joinable ["a=1", "x=%FF"] := by
    have hfirst : (joined '&' ["a=1", "x=%FF"]).toList.head? = some 'a' := by decide
    have hlast : (joined '&' ["a=1", "x=%FF"]).toList.getLast? = some 'F' := by decide
    refine ⟨by decide, by decide, fun c hc => ?_, fun c hc => ?_⟩
    · rw [hfirst, Option.mem_some_iff] at hc
      subst hc
      decide
    · rw [hlast, Option.mem_some_iff] at hc
      subst hc
      decide
  have hforms := parseParams_forms_agree hquery (Json.listText_compact _)
  have hjoined : joined '&' ["a=1", "x=%FF"] = "a=1&x=%FF" := by decide
  have hlist : String.ofList (Json.strings ["a=1", "x=%FF"]).compact.toList = "[\"a=1\",\"x=%FF\"]" := by
    decide
  rw [hjoined, hlist] at hforms
  exact ⟨hforms.1, by decide +kernel⟩

end Event

end PixelAudit
