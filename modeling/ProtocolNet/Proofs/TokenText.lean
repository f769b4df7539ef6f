import ProtocolNet.Proofs.EventLines

namespace ProtocolNet

namespace Token

variable {kind : Str} {value : Json} {token : Token}

-- The token of a name and a number. A name that is no kind's stands for the unit token.
def named (kind : Str) (n : Nat) : Token :=
  match Kind.ofText? kind with
  | some kind => .ident kind n
  | none => .unit

-- What a name and a value stand for. A kind needs a number; a name that is no kind's stands for
-- the unit token, whatever the value.
inductive StandsFor (kind : Str) : Json → Token → Prop
  | number (n : Nat) : StandsFor kind (.int n) (named kind n)
  | unknown {value : Json} (none : Kind.ofText? kind = none) : StandsFor kind value .unit

theorem make_natural (kind : Str) (n : Nat) : make kind (.int n) = .ok (named kind n) := by
  unfold make named
  cases Kind.ofText? kind <;> rfl

theorem make_ok_iff : make kind value = .ok token ↔ StandsFor kind value token := by
  constructor
  · intro made
    unfold make at made
    split at made
    · rename_i none
      cases made
      exact .unknown none
    · rename_i known found
      split at made
      · rename_i n natural
        cases made
        obtain rfl : value = .int n := by
          unfold Json.natural? at natural
          split at natural <;> cases natural
          rfl
        have same : named kind n = .ident known n := by rw [named,found]
        exact same ▸ .number n
      · cases made
  · intro stands
    cases stands with
    | number n => exact make_natural kind n
    | unknown none => rw [make,none]

end Token

namespace Transcript

open Rule

variable {token : Token} {tree : TokenTree} {lexemes : List Lexeme} {kind written : String}
  {number : Option Nat} {front core back s : List Char} {n : Nat}

-- The token of a literal. Without a number there is one for a name that is no kind's.
inductive TokenTree.Means : TokenTree → Token → Prop
  | numbered (kind : String) (n : Nat) : Means (.numbered kind n) (Token.named kind n)
  | plain {kind : String} (none : Token.Kind.ofText? kind = none) : Means (.plain kind) .unit

-- A text that says a token, in any layout and with blanks of every kind around it.
inductive TokenText (token : Token) : List Char → Prop
  | written {front core back : List Char} {tree : TokenTree}
      (before : ∀ c ∈ front, Text.isBlank c = true) (behind : ∀ c ∈ back, Text.isBlank c = true)
      (meant : tree.Means token) (laid : LaidOut core tree.lexemes) :
      TokenText token (front ++ (core ++ back))

theorem tokenOf_literal : tokenOf written (.token kind number) = .ok token ↔
    Token.StandsFor kind (literalValue number) token := by
  rw [tokenOf,← Token.make_ok_iff]
  cases Token.make kind (literalValue number) <;> simp

theorem tokenOf_ok_iff : tokenOf written tree.sentence = .ok token ↔ tree.Means token := by
  cases tree with
  | numbered kind n =>
    rw [TokenTree.sentence,tokenOf_literal,literalValue]
    constructor
    · rintro (_ | none)
      · exact .numbered kind n
      · have unit : Token.named kind n = .unit := by rw [Token.named,none]
        exact unit ▸ .numbered kind n
    · rintro ⟨⟩
      exact .number n
  | plain kind =>
    rw [TokenTree.sentence,tokenOf_literal,literalValue]
    constructor
    · rintro (_ | none)
      exact .plain none
    · rintro (_ | none)
      exact .unknown none

-- A line that is read as a literal is laid out as one.
theorem literal_of_readSentence (parsed : readSentence s = .ok (.token kind number)) :
    ∃ tree : TokenTree, LaidOut (Text.trim s) tree.lexemes ∧ tree.sentence = .token kind number := by
  obtain ⟨lexemes,lexes,whole⟩ := readSentence_ok_iff.mp parsed
  obtain ⟨line,rfl,same⟩ := tree_of_sentenceOf? whole
  cases line with
  | located | event => cases same
  | token tree => exact ⟨tree,.of_lexes lexes,same⟩

theorem readToken_laidOut (before : ∀ c ∈ front, Text.isBlank c = true)
    (behind : ∀ c ∈ back, Text.isBlank c = true) (meant : tree.Means token)
    (laid : LaidOut core tree.lexemes) :
    readToken (.ofList (front ++ (core ++ back))) = .ok token := by
  have line : LaidOut core (LineTree.token tree).lexemes := laid
  have parsed : readSentence (front ++ (core ++ back)) = .ok tree.sentence :=
    readSentence_laidOut before behind line
  rw [readToken,String.toList_ofList,parsed]
  exact tokenOf_ok_iff.mpr meant

-- The texts of a token are the layouts of its literals.
theorem readToken_ok_iff {s : String} : readToken s = .ok token ↔ TokenText token s.toList := by
  constructor
  · intro read
    obtain ⟨sentence,parsed,made⟩ := Event.bind_ok read
    cases sentence with
    | event => cases made
    | token kind number =>
      obtain ⟨tree,laid,same⟩ := literal_of_readSentence parsed
      obtain ⟨front,back,split,before,behind⟩ := Text.trim_parts s.toList
      rw [split]
      rw [← same] at made
      exact .written before behind (tokenOf_ok_iff.mp made) laid
  · intro text
    generalize split : s.toList = chars at text
    cases text with
    | written before behind meant laid =>
      rw [← String.ofList_toList (s := s),split]
      exact readToken_laidOut before behind meant laid

theorem isWritable_of_laidOut (laid : LaidOut s lexemes) (read : Lexeme.number n ∈ lexemes) :
    Text.isWritable n = true := by
  induction laid with
  | done => cases read
  | blank _ _ ih => exact ih read
  | newline _ ih => exact ih read
  | comment _ _ ih => exact ih read
  | lastComment => cases read
  | lexeme spelled _ ih =>
    cases read with
    | head =>
      cases spelled with
      | number _ _ value => exact Text.isWritable_of_readDigits value
    | tail _ behind => exact ih behind

-- Only a token with a text is ever said.
theorem TokenText.writable (text : TokenText token s) : token.isWritable = true := by
  cases text with
  | written _ _ meant laid =>
    cases meant with
    | numbered kind n =>
      unfold Token.named
      cases Token.Kind.ofText? kind with
      | none => rfl
      | some kind => exact isWritable_of_laidOut laid (by simp [TokenTree.lexemes])
    | plain => rfl

-- A name with a number in brackets, as it is written without blanks.
theorem laidOut_numbered (named : Lexes.isName kind.toList = true)
    (writable : Text.isWritable n = true) :
    LaidOut (kind.toList ++ '(' :: ((Nat.repr n).toList ++ [')']))
      (TokenTree.numbered kind n).lexemes := by
  have name : Spells (.name kind) kind.toList := by
    have spelled := Spells.name named
    rwa [String.ofList_toList] at spelled
  have number : Spells (.number n) (Nat.repr n).toList := by
    rw [Nat.toList_repr]
    exact .number Nat.toDigits_ne_nil Text.isDigit_toDigits (Text.readDigits_toDigits writable)
  exact .lexeme name (.lexeme .lparen (.lexeme number (.lexeme .rparen .done)))

theorem laidOut_plain (named : Lexes.isName kind.toList = true) :
    LaidOut kind.toList (TokenTree.plain kind).lexemes := by
  have laid := LaidOut.lexeme (Spells.name named) .done
  rwa [List.append_nil,String.ofList_toList] at laid

theorem readToken_of_laidOut {s : String} (meant : tree.Means token)
    (laid : LaidOut s.toList tree.lexemes) : readToken s = .ok token := by
  have none : ∀ c ∈ ([] : List Char), Text.isBlank c = true := List.forall_mem_nil _
  have read := readToken_laidOut none none meant laid
  rwa [List.nil_append,List.append_nil,String.ofList_toList] at read

end Transcript

namespace Token

open Transcript

-- The literal that is written for a token.
def literal : Token → TokenTree
  | .unit => .plain "Unit"
  | .ident kind n => .numbered kind.text n

theorem Kind.ofText?_text (kind : Kind) : ofText? kind.text = some kind := by cases kind <;> rfl

theorem literal_means (token : Token) : token.literal.Means token := by
  cases token with
  | unit => exact .plain rfl
  | ident kind n =>
    have same : named kind.text n = .ident kind n := by rw [named,Kind.ofText?_text]
    have means := TokenTree.Means.numbered kind.text n
    rwa [same] at means

theorem laidOut_text (token : Token) (writable : token.isWritable = true) :
    LaidOut token.text.toList token.literal.lexemes := by
  cases token with
  | unit => exact laidOut_plain rfl
  | ident kind n =>
    have named : Lexes.isName kind.text.toList = true := by cases kind <;> rfl
    have brackets : "(".toList = ['('] ∧ ")".toList = [')'] := ⟨rfl,rfl⟩
    rw [text,String.toList_append,String.toList_append,String.toList_append,brackets.1,brackets.2]
    exact laidOut_numbered named writable

theorem readToken_text (token : Token) : readToken token.text = .ok token ↔ token.isWritable = true :=
  ⟨fun read => (readToken_ok_iff.mp read).writable,
    fun writable => readToken_of_laidOut token.literal_means (token.laidOut_text writable)⟩

end Token

end ProtocolNet
