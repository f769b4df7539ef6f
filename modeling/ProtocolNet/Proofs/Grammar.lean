import Mathlib.Computability.ContextFreeGrammar
import ProtocolNet.Transcript.Sentence

namespace ProtocolNet.Transcript

-- The phrases of which a line of a transcript is made.
inductive Phrase where
  | line | event | fields | value | token
deriving DecidableEq

abbrev Part := Symbol String Phrase

-- The grammar of lines. Its terminals are the classes of lexemes.
def rules : List (ContextFreeRule String Phrase) := [
  ⟨.line,[.nonterminal .event,.terminal "LOCATION"]⟩,
  ⟨.line,[.nonterminal .event]⟩,
  ⟨.line,[.nonterminal .token]⟩,
  ⟨.event,[.terminal "NAME",.terminal "LPAREN",.nonterminal .fields,.terminal "RPAREN"]⟩,
  ⟨.event,[.terminal "NAME",.terminal "LPAREN",.terminal "RPAREN"]⟩,
  ⟨.fields,[.nonterminal .fields,.terminal "COMMA",.terminal "NAME",.terminal "EQUALS",
    .nonterminal .value]⟩,
  ⟨.fields,[.terminal "NAME",.terminal "EQUALS",.nonterminal .value]⟩,
  ⟨.value,[.terminal "NUMBER"]⟩,
  ⟨.value,[.terminal "STRING"]⟩,
  ⟨.value,[.terminal "NAME"]⟩,
  ⟨.token,[.terminal "NAME",.terminal "LPAREN",.terminal "NUMBER",.terminal "RPAREN"]⟩,
  ⟨.token,[.terminal "NAME"]⟩]

def grammar : ContextFreeGrammar String := ⟨Phrase,.line,rules.toFinset⟩

-- Lexemes that can be derived from a line.
def IsLine (lexemes : List Lexeme) : Prop := lexemes.map (·.className) ∈ grammar.language

-- Lexemes that a line can start with.
def Viable (lexemes : List Lexeme) : Prop := ∃ more, IsLine (lexemes ++ more)

-- Derivation trees: a type for each phrase, a constructor for each of its rules.
inductive ValueTree where
  | number (n : Nat)
  | string (s : String)
  | name (s : String)
deriving DecidableEq

inductive FieldsTree where
  | more (earlier : FieldsTree) (field : String) (value : ValueTree)
  | one (field : String) (value : ValueTree)
deriving DecidableEq

inductive EventTree where
  | filled (name : String) (fields : FieldsTree)
  | bare (name : String)
deriving DecidableEq

inductive TokenTree where
  | numbered (kind : String) (n : Nat)
  | plain (kind : String)
deriving DecidableEq

inductive LineTree where
  | located (event : EventTree) (location : String)
  | event (event : EventTree)
  | token (token : TokenTree)
deriving DecidableEq

-- The lexemes at the leaves of a tree, and what its rules make of them.
def ValueTree.lexeme : ValueTree → Lexeme
  | .number n => .number n
  | .string s => .string s
  | .name s => .name s

def ValueTree.value : ValueTree → FieldValue
  | .number n => .number n
  | .string s | .name s => .text s

def FieldsTree.lexemes : FieldsTree → List Lexeme
  | .more earlier field value => earlier.lexemes ++ [.comma,.name field,.equals,value.lexeme]
  | .one field value => [.name field,.equals,value.lexeme]

def FieldsTree.fields : FieldsTree → Fields
  | .more earlier field value => earlier.fields ++ [(field,value.value)]
  | .one field value => [(field,value.value)]

def EventTree.lexemes : EventTree → List Lexeme
  | .filled name fields => .name name :: .lparen :: (fields.lexemes ++ [.rparen])
  | .bare name => [.name name,.lparen,.rparen]

def EventTree.name : EventTree → String
  | .filled name _ | .bare name => name

def EventTree.fields : EventTree → Fields
  | .filled _ fields => fields.fields
  | .bare _ => []

def TokenTree.lexemes : TokenTree → List Lexeme
  | .numbered kind n => [.name kind,.lparen,.number n,.rparen]
  | .plain kind => [.name kind]

def TokenTree.sentence : TokenTree → Sentence
  | .numbered kind n => .token kind (some n)
  | .plain kind => .token kind none

def LineTree.lexemes : LineTree → List Lexeme
  | .located tree location => tree.lexemes ++ [.location location]
  | .event tree => tree.lexemes
  | .token tree => tree.lexemes

def LineTree.sentence : LineTree → Sentence
  | .located tree location => .event tree.name tree.fields (some location)
  | .event tree => .event tree.name tree.fields none
  | .token tree => tree.sentence

-- A form of the grammar with its terminals alone.
def word (lexemes : List Lexeme) : List Part := lexemes.map fun lexeme => .terminal lexeme.className

variable {lexeme : Lexeme} {lexemes front back : List Lexeme} {part : Part} {parts more : List Part}
  {phrase : Phrase}

theorem isLine_iff : IsLine lexemes ↔ grammar.Derives [.nonterminal .line] (word lexemes) := by
  rw [IsLine,ContextFreeGrammar.mem_language_iff,List.map_map]
  rfl

theorem word_append : word (front ++ back) = word front ++ word back := List.map_append

-- One rule, then whatever its right side leads to.
theorem derives_rule (rule : ContextFreeRule String Phrase) (listed : rule ∈ rules)
    (later : grammar.Derives rule.output more) : grammar.Derives [.nonterminal rule.input] more := by
  have known : rule ∈ rules.toFinset := List.mem_toFinset.mpr listed
  have step : grammar.Produces [.nonterminal rule.input] rule.output :=
    ⟨rule,known,ContextFreeRule.Rewrites.input_output⟩
  exact step.trans_derives later

theorem derives_done : grammar.Derives [] (word []) := Relation.ReflTransGen.refl

theorem derives_terminal (lexeme : Lexeme) (later : grammar.Derives parts (word back)) :
    grammar.Derives (.terminal lexeme.className :: parts) (word (lexeme :: back)) :=
  later.append_left [.terminal lexeme.className]

theorem derives_phrase (here : grammar.Derives [part] (word front))
    (later : grammar.Derives parts (word back)) :
    grammar.Derives (part :: parts) (word (front ++ back)) := by
  rw [word_append]
  exact (here.append_right parts).trans (later.append_left (word front))

theorem ValueTree.derives (tree : ValueTree) :
    grammar.Derives [.nonterminal .value] (word [tree.lexeme]) := by
  cases tree with
  | number n =>
    exact derives_rule ⟨.value,[.terminal "NUMBER"]⟩ (by decide)
      (derives_terminal (.number n) derives_done)
  | string s =>
    exact derives_rule ⟨.value,[.terminal "STRING"]⟩ (by decide)
      (derives_terminal (.string s) derives_done)
  | name s =>
    exact derives_rule ⟨.value,[.terminal "NAME"]⟩ (by decide)
      (derives_terminal (.name s) derives_done)

theorem FieldsTree.derives (tree : FieldsTree) :
    grammar.Derives [.nonterminal .fields] (word tree.lexemes) := by
  induction tree with
  | more earlier field value ih =>
    refine derives_rule ⟨.fields,[.nonterminal .fields,.terminal "COMMA",.terminal "NAME",
      .terminal "EQUALS",.nonterminal .value]⟩ (by decide) (derives_phrase ih ?_)
    exact derives_terminal .comma (derives_terminal (.name field)
      (derives_terminal .equals value.derives))
  | one field value =>
    exact derives_rule ⟨.fields,[.terminal "NAME",.terminal "EQUALS",.nonterminal .value]⟩
      (by decide) (derives_terminal (.name field) (derives_terminal .equals value.derives))

theorem EventTree.derives (tree : EventTree) :
    grammar.Derives [.nonterminal .event] (word tree.lexemes) := by
  cases tree with
  | filled name fields =>
    refine derives_rule ⟨.event,[.terminal "NAME",.terminal "LPAREN",.nonterminal .fields,
      .terminal "RPAREN"]⟩ (by decide) (derives_terminal (.name name) (derives_terminal .lparen ?_))
    exact derives_phrase fields.derives (derives_terminal .rparen derives_done)
  | bare name =>
    exact derives_rule ⟨.event,[.terminal "NAME",.terminal "LPAREN",.terminal "RPAREN"]⟩ (by decide)
      (derives_terminal (.name name) (derives_terminal .lparen
        (derives_terminal .rparen derives_done)))

theorem TokenTree.derives (tree : TokenTree) :
    grammar.Derives [.nonterminal .token] (word tree.lexemes) := by
  cases tree with
  | numbered kind n =>
    exact derives_rule ⟨.token,[.terminal "NAME",.terminal "LPAREN",.terminal "NUMBER",
      .terminal "RPAREN"]⟩ (by decide) (derives_terminal (.name kind) (derives_terminal .lparen
        (derives_terminal (.number n) (derives_terminal .rparen derives_done))))
  | plain kind =>
    exact derives_rule ⟨.token,[.terminal "NAME"]⟩ (by decide)
      (derives_terminal (.name kind) derives_done)

theorem LineTree.derives (tree : LineTree) :
    grammar.Derives [.nonterminal .line] (word tree.lexemes) := by
  cases tree with
  | located event location =>
    exact derives_rule ⟨.line,[.nonterminal .event,.terminal "LOCATION"]⟩ (by decide)
      (derives_phrase event.derives (derives_terminal (.location location) derives_done))
  | event event => exact derives_rule ⟨.line,[.nonterminal .event]⟩ (by decide) event.derives
  | token token => exact derives_rule ⟨.line,[.nonterminal .token]⟩ (by decide) token.derives

-- The lexemes that a part of a form can stand for, by the trees of its phrase.
def Stands : Part → List Lexeme → Prop
  | .terminal class', lexemes => ∃ lexeme : Lexeme, lexeme.className = class' ∧ lexemes = [lexeme]
  | .nonterminal .line, lexemes => ∃ tree : LineTree, tree.lexemes = lexemes
  | .nonterminal .event, lexemes => ∃ tree : EventTree, tree.lexemes = lexemes
  | .nonterminal .fields, lexemes => ∃ tree : FieldsTree, tree.lexemes = lexemes
  | .nonterminal .value, lexemes => ∃ tree : ValueTree, [tree.lexeme] = lexemes
  | .nonterminal .token, lexemes => ∃ tree : TokenTree, tree.lexemes = lexemes

-- The same for a form, part by part.
def Covers : List Part → List Lexeme → Prop
  | [], lexemes => lexemes = []
  | part :: rest, lexemes => ∃ front back, lexemes = front ++ back ∧ Stands part front ∧ Covers rest back

theorem covers_nil : Covers [] lexemes ↔ lexemes = [] := Iff.rfl

theorem covers_append : Covers (parts ++ more) lexemes ↔
    ∃ front back, lexemes = front ++ back ∧ Covers parts front ∧ Covers more back := by
  induction parts generalizing lexemes with
  | nil =>
    constructor
    · intro covers
      exact ⟨[],lexemes,rfl,rfl,covers⟩
    · rintro ⟨front,back,rfl,rfl,covers⟩
      exact covers
  | cons part parts ih =>
    constructor
    · rintro ⟨first,later,rfl,stands,covers⟩
      obtain ⟨front,back,rfl,here,there⟩ := ih.mp covers
      exact ⟨first ++ front,back,(List.append_assoc ..).symm,⟨first,front,rfl,stands,here⟩,there⟩
    · rintro ⟨front,back,rfl,⟨first,later,rfl,stands,here⟩,there⟩
      exact ⟨first,later ++ back,List.append_assoc ..,stands,ih.mpr ⟨later,back,rfl,here,there⟩⟩

theorem covers_terminal {class' : String} : Covers (.terminal class' :: parts) lexemes ↔
    ∃ lexeme back, lexemes = lexeme :: back ∧ lexeme.className = class' ∧ Covers parts back := by
  constructor
  · rintro ⟨front,back,rfl,⟨lexeme,same,rfl⟩,covers⟩
    exact ⟨lexeme,back,rfl,same,covers⟩
  · rintro ⟨lexeme,back,rfl,same,covers⟩
    exact ⟨[lexeme],back,rfl,⟨lexeme,same,rfl⟩,covers⟩

theorem covers_word : Covers (word lexemes) lexemes := by
  induction lexemes with
  | nil => rfl
  | cons lexeme rest ih => exact covers_terminal.mpr ⟨lexeme,rest,rfl,rfl,ih⟩

theorem covers_single : Covers [part] lexemes ↔ Stands part lexemes := by
  constructor
  · rintro ⟨front,back,rfl,stands,rfl⟩
    rwa [List.append_nil]
  · intro stands
    exact ⟨lexemes,[],(List.append_nil _).symm,stands,rfl⟩

@[simp] theorem className_name : lexeme.className = "NAME" ↔ ∃ s, lexeme = .name s := by
  cases lexeme <;> simp [Lexeme.className]

@[simp] theorem className_number : lexeme.className = "NUMBER" ↔ ∃ n, lexeme = .number n := by
  cases lexeme <;> simp [Lexeme.className]

@[simp] theorem className_string : lexeme.className = "STRING" ↔ ∃ s, lexeme = .string s := by
  cases lexeme <;> simp [Lexeme.className]

@[simp] theorem className_location : lexeme.className = "LOCATION" ↔ ∃ s, lexeme = .location s := by
  cases lexeme <;> simp [Lexeme.className]

@[simp] theorem className_lparen : lexeme.className = "LPAREN" ↔ lexeme = .lparen := by
  cases lexeme <;> simp [Lexeme.className]

@[simp] theorem className_rparen : lexeme.className = "RPAREN" ↔ lexeme = .rparen := by
  cases lexeme <;> simp [Lexeme.className]

@[simp] theorem className_comma : lexeme.className = "COMMA" ↔ lexeme = .comma := by
  cases lexeme <;> simp [Lexeme.className]

@[simp] theorem className_equals : lexeme.className = "EQUALS" ↔ lexeme = .equals := by
  cases lexeme <;> simp [Lexeme.className]

-- What the right side of a rule covers has a tree of the phrase on the left.
theorem stands_of_rule {rule : ContextFreeRule String Phrase} (listed : rule ∈ rules)
    (covers : Covers rule.output lexemes) : Stands (.nonterminal rule.input) lexemes := by
  simp only [rules,List.mem_cons,List.not_mem_nil,or_false] at listed
  rcases listed with rfl | rfl | rfl | rfl | rfl | rfl | rfl | rfl | rfl | rfl | rfl | rfl
  · obtain ⟨_,_,rfl,⟨event,rfl⟩,covers⟩ := covers
    obtain ⟨_,_,rfl,located,rfl⟩ := covers_terminal.mp covers
    obtain ⟨location,rfl⟩ := className_location.mp located
    exact ⟨.located event location,rfl⟩
  · obtain ⟨event,rfl⟩ := covers_single.mp covers
    exact ⟨.event event,rfl⟩
  · obtain ⟨token,rfl⟩ := covers_single.mp covers
    exact ⟨.token token,rfl⟩
  · simp only [covers_terminal,className_name,className_lparen] at covers
    obtain ⟨_,_,rfl,⟨name,rfl⟩,_,_,rfl,rfl,_,_,rfl,⟨fields,rfl⟩,covers⟩ := covers
    obtain ⟨_,_,rfl,closed,rfl⟩ := covers_terminal.mp covers
    obtain rfl := className_rparen.mp closed
    exact ⟨.filled name fields,rfl⟩
  · simp only [covers_terminal,className_name,className_lparen,className_rparen,covers_nil] at covers
    obtain ⟨_,_,rfl,⟨name,rfl⟩,_,_,rfl,rfl,_,_,rfl,rfl,rfl⟩ := covers
    exact ⟨.bare name,rfl⟩
  · obtain ⟨_,_,rfl,⟨earlier,rfl⟩,covers⟩ := covers
    simp only [covers_terminal,className_comma,className_name,className_equals] at covers
    obtain ⟨_,_,rfl,rfl,_,_,rfl,⟨field,rfl⟩,_,_,rfl,rfl,covers⟩ := covers
    obtain ⟨value,rfl⟩ := covers_single.mp covers
    exact ⟨.more earlier field value,rfl⟩
  · simp only [covers_terminal,className_name,className_equals] at covers
    obtain ⟨_,_,rfl,⟨field,rfl⟩,_,_,rfl,rfl,covers⟩ := covers
    obtain ⟨value,rfl⟩ := covers_single.mp covers
    exact ⟨.one field value,rfl⟩
  · obtain ⟨_,same,rfl⟩ := covers_single.mp covers
    obtain ⟨n,rfl⟩ := className_number.mp same
    exact ⟨.number n,rfl⟩
  · obtain ⟨_,same,rfl⟩ := covers_single.mp covers
    obtain ⟨s,rfl⟩ := className_string.mp same
    exact ⟨.string s,rfl⟩
  · obtain ⟨_,same,rfl⟩ := covers_single.mp covers
    obtain ⟨s,rfl⟩ := className_name.mp same
    exact ⟨.name s,rfl⟩
  · simp only [covers_terminal,className_name,className_lparen,className_number,className_rparen,
      covers_nil] at covers
    obtain ⟨_,_,rfl,⟨kind,rfl⟩,_,_,rfl,rfl,_,_,rfl,⟨n,rfl⟩,_,_,rfl,rfl,rfl⟩ := covers
    exact ⟨.numbered kind n,rfl⟩
  · obtain ⟨_,same,rfl⟩ := covers_single.mp covers
    obtain ⟨kind,rfl⟩ := className_name.mp same
    exact ⟨.plain kind,rfl⟩

theorem covers_of_produces (produces : grammar.Produces parts more) (covers : Covers more lexemes) :
    Covers parts lexemes := by
  obtain ⟨rule,listed,rewrites⟩ := produces
  obtain ⟨before,after,rfl,rfl⟩ := rewrites.exists_parts
  obtain ⟨_,back,rfl,covers,rest⟩ := covers_append.mp covers
  obtain ⟨front,middle,rfl,first,here⟩ := covers_append.mp covers
  have listed : rule ∈ rules.toFinset := listed
  have stands := stands_of_rule (List.mem_toFinset.mp listed) here
  exact covers_append.mpr ⟨_,back,rfl,covers_append.mpr ⟨front,middle,rfl,first,covers_single.mpr stands⟩,rest⟩

theorem covers_of_derives (derives : grammar.Derives parts more) (covers : Covers more lexemes) :
    Covers parts lexemes := by
  induction derives using Relation.ReflTransGen.head_induction_on with
  | refl => exact covers
  | head step _ ih => exact covers_of_produces step ih

-- The lexemes of a line are those at the leaves of its trees.
theorem isLine_iff_tree : IsLine lexemes ↔ ∃ tree : LineTree, tree.lexemes = lexemes := by
  rw [isLine_iff]
  constructor
  · intro derives
    exact covers_single.mp (covers_of_derives derives covers_word)
  · rintro ⟨tree,rfl⟩
    exact tree.derives

end ProtocolNet.Transcript
