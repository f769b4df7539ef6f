import ProtocolNet.Net.Loader
import ProtocolNet.Proofs.TokenText

namespace ProtocolNet.Net

open Transcript (TokenText TokenTree LaidOut)

-- What an item of the initial marking stands for: a pair of a kind's name and a value, an object
-- with both, where a missing value counts as null, or the text of a token.
inductive Denotes : Json → Token → Prop
  | pair {kind : Str} {value : Json} {token : Token} (stands : Token.StandsFor kind value token) :
      Denotes (.arr [.str kind,value]) token
  | object {fields : List (Str × Json)} {kind : Str} {token : Token}
      (ofKind : fields.lookup ↑"kind" = some (.str kind))
      (stands : Token.StandsFor kind (Json.orNull (fields.lookup ↑"value")) token) :
      Denotes (.obj fields) token
  | text {written : Str} {token : Token} (text : TokenText token written.shown) :
      Denotes (.str written) token

-- The pattern that the fields of an arc give: the variable they name, else the token of their
-- kind and number. Where one of both is missing or no such thing, the unit token stands for it.
inductive GivesPattern (fields : List (Str × Json)) : Pattern → Prop
  | named {identifier : Str} (written : fields.lookup ↑"variable" = some (.str identifier))
      (filled : identifier ≠ []) : GivesPattern fields (.named identifier)
  | token {kind : Str} {n : Nat} (unnamed : fields.lookup ↑"variable" = none)
      (ofKind : fields.lookup ↑"kind" = some (.str kind))
      (numbered : fields.lookup ↑"value" = some (.int n)) :
      GivesPattern fields (.constant (.named kind n))
  | unit (unnamed : fields.lookup ↑"variable" = none)
      (other : ∀ kind (n : Nat), ¬(fields.lookup ↑"kind" = some (.str kind) ∧
        fields.lookup ↑"value" = some (.int n))) : GivesPattern fields (.constant .unit)

def GivesArc (value : Json) (arc : Arc) : Prop :=
  ∃ fields, value = .obj fields ∧ fields.lookup ↑"place" = some (.str arc.place) ∧ arc.place ≠ [] ∧
    GivesPattern fields arc.pattern

variable {fields : List (Str × Json)} {value : Json} {token : Token} {pattern : Pattern}
  {arc : Arc} {site kind s : Str} {n : Nat}

theorem filledText?_eq_some_iff : filledText? value = some s ↔ value = .str s ∧ s ≠ [] := by
  cases value with
  | str written =>
    rw [filledText?]
    by_cases empty : written = []
    · rw [if_pos empty]
      simp only [reduceCtorEq,Json.str.injEq,false_iff,not_and,not_not]
      rintro rfl
      exact empty
    · rw [if_neg empty]
      simp only [Option.some.injEq,Json.str.injEq]
      constructor
      · rintro rfl
        exact ⟨rfl,empty⟩
      · exact And.left
  | null | bool | int | float | arr | obj => simp [filledText?]

theorem readKindValue_ok_iff {kind : Json} : readKindValue site kind value = .ok token ↔
    ∃ written, kind = .str written ∧ Token.StandsFor written value token := by
  cases kind with
  | str written =>
    simp only [readKindValue,Json.str.injEq,exists_eq_left',← Token.make_ok_iff]
    cases Token.make written value <;> simp
  | null | bool | int | float | arr | obj => simp [readKindValue]

theorem orNull_eq_str_iff {found : Option Json} : Json.orNull found = .str s ↔ found = some (.str s) := by
  cases found <;> simp [Json.orNull]

theorem readInitialToken_text {written : Str} : readInitialToken site (.str written) = .ok token ↔
    Transcript.readToken (.ofList written.shown) = .ok token := by
  rw [readInitialToken]
  cases Transcript.readToken (.ofList written.shown) with
  | ok read => simp
  | error fault => cases fault <;> simp

-- An item of the initial marking is read as what it stands for.
theorem readInitialToken_ok_iff : readInitialToken site value = .ok token ↔ Denotes value token := by
  constructor
  · intro read
    cases value with
    | null | bool | int | float => cases read
    | str written =>
      have text := Transcript.readToken_ok_iff.mp (readInitialToken_text.mp read)
      rw [String.toList_ofList] at text
      exact .text text
    | arr items =>
      unfold readInitialToken at read
      split at read
      · rename_i shape
        cases shape
        obtain ⟨kind,rfl,stands⟩ := readKindValue_ok_iff.mp read
        exact .pair stands
      all_goals simp_all
    | obj fields =>
      obtain ⟨kind,named,stands⟩ := readKindValue_ok_iff.mp read
      exact .object (orNull_eq_str_iff.mp named) stands
  · intro denotes
    cases denotes with
    | pair stands => exact readKindValue_ok_iff.mpr ⟨_,rfl,stands⟩
    | object ofKind stands =>
      exact readKindValue_ok_iff.mpr ⟨_,orNull_eq_str_iff.mpr ofKind,stands⟩
    | text text =>
      refine readInitialToken_text.mpr (Transcript.readToken_ok_iff.mpr ?_)
      rwa [String.toList_ofList]

theorem Denotes.unique {other : Token} (denotes : Denotes value token) (same : Denotes value other) :
    token = other := by
  have read : readInitialToken "" value = .ok token := readInitialToken_ok_iff.mpr denotes
  rw [readInitialToken_ok_iff.mpr same] at read
  exact (Except.ok.inj read).symm

-- A pattern is read from the fields of an arc, and no other one.
theorem readPattern_ok_iff : readPattern site fields = .ok pattern ↔ GivesPattern fields pattern := by
  constructor
  · intro read
    unfold readPattern at read
    split at read
    · rename_i found written
      split at read
      · rename_i identifier text
        cases read
        obtain ⟨rfl,filled⟩ := filledText?_eq_some_iff.mp text
        exact .named written filled
      · cases read
    · rename_i unnamed
      split at read
      · rename_i kind found ofKind valued
        have none : ∀ token, Token.make kind found = .ok token → (∀ n : Nat, found ≠ .int n) →
            token = .unit := by
          intro token made other
          cases Token.make_ok_iff.mp made with
          | number n => exact absurd rfl (other n)
          | unknown => rfl
        by_cases natural : ∃ n : Nat, found = .int n
        · obtain ⟨n,rfl⟩ := natural
          rw [Token.make_natural] at read
          cases read
          exact .token unnamed ofKind valued
        · have other : GivesPattern fields (.constant .unit) := by
            refine .unit unnamed fun kind' n same => natural ⟨n,?_⟩
            exact Option.some.inj (valued.symm.trans same.2)
          cases made : Token.make kind found with
          | error bad => rw [made] at read; cases read; exact other
          | ok token =>
            rw [made] at read
            cases read
            rw [none token made fun n same => natural ⟨n,same⟩]
            exact other
      · rename_i other
        cases read
        exact .unit unnamed fun kind n same => other kind (.int n) same.1 same.2
  · intro gives
    cases gives with
    | @named identifier written filled =>
      have text : filledText? (.str identifier) = some identifier :=
        filledText?_eq_some_iff.mpr ⟨rfl,filled⟩
      rw [readPattern,written]
      simp only [text]
    | @token kind n unnamed ofKind numbered =>
      rw [readPattern,unnamed,ofKind,numbered]
      simp only [Token.make_natural]
    | unit unnamed other =>
      rw [readPattern,unnamed]
      simp only
      split
      · rename_i kind found ofKind valued
        split
        · rename_i token made
          cases Token.make_ok_iff.mp made with
          | number n => exact absurd ⟨ofKind,valued⟩ (other kind n)
          | unknown => rfl
        · rfl
      · rfl

theorem readArc_ok_iff : readArc site value = .ok arc ↔ GivesArc value arc := by
  constructor
  · intro read
    unfold readArc at read
    split at read
    · rename_i fields
      split at read
      · rename_i place placed
        obtain ⟨written,filled⟩ := filledText?_eq_some_iff.mp placed
        cases pattern : readPattern site fields with
        | error fault => rw [pattern] at read; cases read
        | ok given =>
          rw [pattern] at read
          cases read
          exact ⟨fields,rfl,orNull_eq_str_iff.mp written,filled,readPattern_ok_iff.mp pattern⟩
      · cases read
    · cases read
  · rintro ⟨fields,rfl,placed,filled,gives⟩
    have text : filledText? (Json.orNull (fields.lookup ↑"place")) = some arc.place :=
      filledText?_eq_some_iff.mpr ⟨orNull_eq_str_iff.mpr placed,filled⟩
    rw [readArc,text]
    simp only [readPattern_ok_iff.mpr gives]
    rfl

theorem readInitialToken_natural {found : List (Str × Json)}
    (ofKind : found.lookup ↑"kind" = some (.str kind)) (numbered : found.lookup ↑"value" = some (.int n)) :
    readInitialToken site (.obj found) = .ok (.named kind n) := by
  apply readInitialToken_ok_iff.mpr
  have stands : Token.StandsFor kind (Json.orNull (found.lookup ↑"value")) (.named kind n) := by
    rw [numbered]
    exact .number n
  exact .object ofKind stands

theorem readArc_natural {found : List (Str × Json)} {place : Str} (filled : place ≠ [])
    (placed : found.lookup ↑"place" = some (.str place)) (unnamed : found.lookup ↑"variable" = none)
    (ofKind : found.lookup ↑"kind" = some (.str kind)) (numbered : found.lookup ↑"value" = some (.int n)) :
    readArc site (.obj found) = .ok ⟨place,.constant (.named kind n)⟩ := by
  apply readArc_ok_iff.mpr
  exact ⟨found,rfl,placed,filled,.token unnamed ofKind numbered⟩

variable {name : String}

theorem readInitialToken_call (named : Transcript.Lexes.isName name.toList = true)
    (writable : Text.isWritable n = true) :
    readInitialToken site (.str ↑(name ++ ("(" ++ (Nat.repr n ++ ")")))) = .ok (.named name n) := by
  apply readInitialToken_text.mpr
  rw [Str.shown_ofString,String.ofList_toList]
  apply Transcript.readToken_of_laidOut (.numbered name n)
  have brackets : "(".toList = ['('] ∧ ")".toList = [')'] := ⟨rfl,rfl⟩
  rw [String.toList_append,String.toList_append,String.toList_append,brackets.1,brackets.2]
  exact Transcript.laidOut_numbered named writable

-- A bare name says the same as the name with null: the unit token if no kind has the name, and
-- otherwise a token without its number, of which both are told.
theorem readInitialToken_bare (named : Transcript.Lexes.isName name.toList = true) :
    (readInitialToken site (.arr [.str name,.null]) = .ok .unit ∧
      readInitialToken site (.str name) = .ok .unit) ∨
    ∃ ofPair ofText, readInitialToken site (.arr [.str name,.null]) = .error ofPair ∧
      readInitialToken site (.str name) = .error ofText ∧
      ofPair.isTold = true ∧ ofText.isTold = true := by
  have parsed : Transcript.readSentence name.toList = .ok (.token name none) := by
    have none : ∀ c ∈ ([] : List Char), Text.isBlank c = true := List.forall_mem_nil _
    have line : LaidOut name.toList (Transcript.LineTree.token (.plain name)).lexemes :=
      Transcript.laidOut_plain named
    have read := Transcript.readSentence_laidOut none none line
    rwa [List.nil_append,List.append_nil] at read
  have bare : Transcript.readToken (.ofList (Str.ofString name).shown) =
      Transcript.tokenOf (Text.trimmed name) (.token name none) := by
    rw [Str.shown_ofString,String.ofList_toList,Transcript.readToken,parsed]
    rfl
  cases made : Token.make name .null with
  | ok token =>
    have pair : readInitialToken site (.arr [.str name,.null]) = .ok token := by
      simp only [readInitialToken,readKindValue,made]
    have text : readInitialToken site (.str name) = .ok token := by
      simp only [readInitialToken,bare,Transcript.tokenOf,Transcript.literalValue,made]
    cases Token.make_ok_iff.mp made with
    | unknown => exact .inl ⟨pair,text⟩
  | error bad =>
    refine .inr ⟨.tokenValue site bad,.tokenText site name (.badToken (Text.trimmed name) bad),
      ?_,?_,rfl,rfl⟩
    · simp only [readInitialToken,readKindValue,made]
    · simp only [readInitialToken,bare,Transcript.tokenOf,Transcript.literalValue,made]

-- Whichever way a token is written down, it is read as that token: in its text with blanks and
-- comments, as a pair, an object, a call or on an arc. Tokens beyond the limit on digits have no
-- text that could be read.
theorem spellings_agree :
    (∀ token : Token, Transcript.readToken token.text = .ok token ↔ token.isWritable = true) ∧
    (∀ (token : Token) (front core back : List Char), (∀ c ∈ front, Text.isBlank c = true) →
      (∀ c ∈ back, Text.isBlank c = true) → LaidOut core token.literal.lexemes →
      Transcript.readToken (.ofList (front ++ (core ++ back))) = .ok token) ∧
    (∀ token : Token, token.isWritable = true → LaidOut token.text.toList token.literal.lexemes) ∧
    (∀ a b : Token, a.text = b.text → a = b) ∧
    (∀ (kind : Str) (n : Nat), ∃ token, Token.make kind (.int n) = .ok token ∧ ∀ site,
      readInitialToken site (.arr [.str kind,.int n]) = .ok token ∧
      (∀ fields, fields.lookup ↑"kind" = some (.str kind) → fields.lookup ↑"value" = some (.int n) →
        readInitialToken site (.obj fields) = .ok token ∧
        ∀ place, place ≠ [] → fields.lookup ↑"place" = some (.str place) →
          fields.lookup ↑"variable" = none →
          readArc site (.obj fields) = .ok ⟨place,.constant token⟩) ∧
      ∀ name : String, kind = ↑name → Transcript.Lexes.isName name.toList = true →
        Text.isWritable n = true →
        readInitialToken site (.str ↑(name ++ ("(" ++ (Nat.repr n ++ ")")))) = .ok token) ∧
    (∀ (name : String) (site : Str), Transcript.Lexes.isName name.toList = true →
      (readInitialToken site (.arr [.str name,.null]) = .ok .unit ∧
        readInitialToken site (.str name) = .ok .unit) ∨
      ∃ ofPair ofText, readInitialToken site (.arr [.str name,.null]) = .error ofPair ∧
        readInitialToken site (.str name) = .error ofText ∧
        ofPair.isTold = true ∧ ofText.isTold = true) := by
  refine ⟨Token.readToken_text,?_,Token.laidOut_text,fun _ _ => Token.text_inj,?_,?_⟩
  · intro token front core back before behind laid
    exact Transcript.readToken_laidOut before behind token.literal_means laid
  · intro kind n
    refine ⟨.named kind n,Token.make_natural kind n,fun site => ⟨?_,?_,?_⟩⟩
    · exact readInitialToken_ok_iff.mpr (.pair (.number n))
    · intro fields ofKind numbered
      refine ⟨readInitialToken_natural ofKind numbered,?_⟩
      intro place filled placed unnamed
      exact readArc_natural filled placed unnamed ofKind numbered
    · rintro name rfl
      exact readInitialToken_call
  · intro kind site named
    exact readInitialToken_bare named

theorem spellings_agree_lock :
    Transcript.readToken "\t Lock ( 42\t)# held\r " = .ok (.ident .lock 42) ∧
      Transcript.readToken (Token.ident .lock 42).text = .ok (.ident .lock 42) ∧
      ∃ token, Token.make "Lock" (.int 42) = .ok token ∧
        readInitialToken "p[0]" (.arr [.str "Lock",.int 42]) = .ok token ∧
        readInitialToken "p[0]" (.str "Lock(42)") = .ok token ∧
        readArc "t pre[0]" (.obj [("place",.str "p"),("kind",.str "Lock"),("value",.int 42)]) =
          .ok ⟨"p",.constant token⟩ := by
  obtain ⟨texts,layouts,_,_,descriptors,_⟩ := spellings_agree
  have writable : Text.isWritable 42 = true := Text.isWritable_of_lt (k := 2) (by decide) (by decide)
  refine ⟨?_,(texts (.ident .lock 42)).mpr writable,?_⟩
  · refine layouts (.ident .lock 42) "\t ".toList "Lock ( 42\t)# held".toList "\r ".toList
      (List.all_eq_true.mp (by decide)) (List.all_eq_true.mp (by decide)) ?_
    have name : Transcript.Spells (.name "Lock") "Lock".toList := .name rfl
    have digits : Transcript.Spells (.number 42) "42".toList :=
      .number (by decide) (List.all_eq_true.mp (by decide)) rfl
    have comment : LaidOut "# held".toList [] := .lastComment (by decide)
    have number : LaidOut " 42\t)# held".toList [.number 42,.rparen] :=
      .blank rfl (.lexeme digits (.blank rfl (.lexeme .rparen comment)))
    exact .lexeme name (.blank rfl (.lexeme .lparen number))
  · obtain ⟨token,made,forms⟩ := descriptors "Lock" 42
    refine ⟨token,made,(forms "p[0]").1,(forms "p[0]").2.2 "Lock" rfl rfl writable,?_⟩
    exact ((forms "t pre[0]").2.1 _ rfl rfl).2 "p"
      (by decide) rfl rfl

end ProtocolNet.Net
