import ProtocolNet.Proofs.Grammar
import ProtocolNet.Proofs.Sentences

namespace ProtocolNet.Transcript

variable {progress next : Progress} {lexeme : Lexeme} {lexemes : List Lexeme} {placed : List Placed}
  {found : Placed} {name : String}

-- Reading a tree from the state in which its phrase may start.
theorem follow_value (value : ValueTree) (fields : Fields) (field : String) :
    (Progress.valueDue name fields field).step? value.lexeme =
      some (.fieldRead name (fields ++ [(field,value.value)])) := by
  cases value <;> rfl

theorem follow_fields (tree : FieldsTree) :
    follow (.opened name) tree.lexemes = some (.fieldRead name tree.fields) := by
  induction tree with
  | more earlier field value ih =>
    rw [FieldsTree.lexemes,follow_append,ih]
    show ((Progress.valueDue name earlier.fields field).step? value.lexeme).bind _ = _
    rw [follow_value]
    rfl
  | one field value =>
    show ((Progress.valueDue name [] field).step? value.lexeme).bind _ = _
    rw [follow_value]
    rfl

theorem follow_eventTree (tree : EventTree) :
    follow .start tree.lexemes = some (.closed tree.name tree.fields) := by
  cases tree with
  | filled name fields =>
    show follow (.opened name) (fields.lexemes ++ [.rparen]) = _
    rw [follow_append,follow_fields]
    rfl
  | bare name => rfl

-- The leaves of a tree are read as what its rules make of them.
theorem sentenceOf?_tree (tree : LineTree) : sentenceOf? tree.lexemes = some tree.sentence := by
  cases tree with
  | located event location =>
    rw [sentenceOf?,LineTree.lexemes,follow_append,follow_eventTree]
    rfl
  | event event =>
    rw [sentenceOf?,LineTree.lexemes,follow_eventTree]
    rfl
  | token token => cases token <;> rfl

-- The fields that have been read when the name of another one may follow, and their
-- lexemes with the comma behind them.
def Led (fields : Fields) (lexemes : List Lexeme) : Prop :=
  (fields = [] ∧ lexemes = []) ∨
    ∃ tree : FieldsTree, tree.fields = fields ∧ lexemes = tree.lexemes ++ [.comma]

-- What has been read on the way to a state.
def Progress.Reached : Progress → List Lexeme → Prop
  | .start, lexemes => lexemes = []
  | .named name, lexemes => lexemes = [.name name]
  | .opened name, lexemes => lexemes = [.name name,.lparen]
  | .numbered name n, lexemes => lexemes = [.name name,.lparen,.number n]
  | .tokenClosed name n, lexemes => lexemes = (TokenTree.numbered name n).lexemes
  | .fieldNamed name fields field, lexemes => ∃ before, Led fields before ∧
      lexemes = .name name :: .lparen :: (before ++ [.name field])
  | .valueDue name fields field, lexemes => ∃ before, Led fields before ∧
      lexemes = .name name :: .lparen :: (before ++ [.name field,.equals])
  | .fieldRead name fields, lexemes => ∃ tree : FieldsTree, tree.fields = fields ∧
      lexemes = .name name :: .lparen :: tree.lexemes
  | .fieldDue name fields, lexemes => ∃ before, Led fields before ∧ before ≠ [] ∧
      lexemes = .name name :: .lparen :: before
  | .closed name fields, lexemes => ∃ tree : EventTree, tree.name = name ∧ tree.fields = fields ∧
      lexemes = tree.lexemes
  | .located name fields location, lexemes => ∃ tree : EventTree, tree.name = name ∧
      tree.fields = fields ∧ lexemes = tree.lexemes ++ [.location location]

theorem Led.value {fields : Fields} {field : String} {value : FieldValue} (led : Led fields lexemes)
    (given : fieldValue? lexeme = some value) : ∃ tree : FieldsTree,
      tree.fields = fields ++ [(field,value)] ∧
        tree.lexemes = lexemes ++ [.name field,.equals,lexeme] := by
  obtain ⟨tree,rfl,rfl⟩ : ∃ tree : ValueTree, tree.value = value ∧ tree.lexeme = lexeme := by
    cases lexeme <;> cases given
    · exact ⟨.name _,rfl,rfl⟩
    · exact ⟨.number _,rfl,rfl⟩
    · exact ⟨.string _,rfl,rfl⟩
  rcases led with ⟨rfl,rfl⟩ | ⟨earlier,rfl,rfl⟩
  · exact ⟨.one field tree,rfl,rfl⟩
  · exact ⟨.more earlier field tree,rfl,by rw [FieldsTree.lexemes,List.append_assoc]; rfl⟩

theorem Progress.Reached.step (reached : progress.Reached lexemes)
    (stepped : progress.step? lexeme = some next) : next.Reached (lexemes ++ [lexeme]) := by
  cases progress with
  | start | named | numbered =>
    cases reached
    cases lexeme <;> cases stepped
    rfl
  | opened name =>
    cases reached
    cases lexeme <;> cases stepped
    · exact ⟨[],.inl ⟨rfl,rfl⟩,rfl⟩
    · rfl
    · exact ⟨.bare name,rfl,rfl,rfl⟩
  | tokenClosed | located => cases lexeme <;> cases stepped
  | fieldNamed name fields field =>
    obtain ⟨before,led,rfl⟩ := reached
    cases lexeme <;> cases stepped
    exact ⟨before,led,by simp⟩
  | valueDue name fields field =>
    obtain ⟨before,led,rfl⟩ := reached
    obtain ⟨value,given,rfl⟩ := Option.map_eq_some_iff.mp stepped
    obtain ⟨tree,same,written⟩ := led.value given
    exact ⟨tree,same,by simp [written]⟩
  | fieldRead name fields =>
    obtain ⟨tree,rfl,rfl⟩ := reached
    cases lexeme <;> cases stepped
    · exact ⟨.filled name tree,rfl,rfl,rfl⟩
    · exact ⟨_,.inr ⟨tree,rfl,rfl⟩,by simp,rfl⟩
  | fieldDue name fields =>
    obtain ⟨before,led,_,rfl⟩ := reached
    cases lexeme <;> cases stepped
    exact ⟨before,led,rfl⟩
  | closed name fields =>
    obtain ⟨tree,rfl,rfl,rfl⟩ := reached
    cases lexeme <;> cases stepped
    exact ⟨tree,rfl,rfl,rfl⟩

theorem Progress.Reached.follow {before : List Lexeme} (reached : progress.Reached before)
    (followed : Transcript.follow progress lexemes = some next) : next.Reached (before ++ lexemes) := by
  induction lexemes generalizing progress before with
  | nil => cases followed; rwa [List.append_nil]
  | cons lexeme rest ih =>
    obtain ⟨middle,stepped,followed⟩ := Option.bind_eq_some_iff.mp followed
    rw [List.append_cons]
    exact ih (reached.step stepped) followed

-- What a complete state makes of its lexemes comes from a tree.
theorem tree_of_sentenceOf? {sentence : Sentence} (parsed : sentenceOf? lexemes = some sentence) :
    ∃ tree : LineTree, tree.lexemes = lexemes ∧ tree.sentence = sentence := by
  obtain ⟨progress,followed,complete⟩ := Option.bind_eq_some_iff.mp parsed
  have start : Progress.start.Reached [] := rfl
  have reached := start.follow followed
  rw [List.nil_append] at reached
  cases progress <;> cases complete
  case named kind => exact ⟨.token (.plain kind),reached.symm,rfl⟩
  case tokenClosed kind n => exact ⟨.token (.numbered kind n),reached.symm,rfl⟩
  case closed =>
    obtain ⟨event,rfl,rfl,rfl⟩ := reached
    exact ⟨.event event,rfl,rfl⟩
  case located location =>
    obtain ⟨event,rfl,rfl,rfl⟩ := reached
    exact ⟨.located event location,rfl,rfl⟩

theorem isLine_iff_sentenceOf? : IsLine lexemes ↔ ∃ sentence, sentenceOf? lexemes = some sentence := by
  rw [isLine_iff_tree]
  constructor
  · rintro ⟨tree,rfl⟩
    exact ⟨tree.sentence,sentenceOf?_tree tree⟩
  · rintro ⟨sentence,parsed⟩
    obtain ⟨tree,written,_⟩ := tree_of_sentenceOf? parsed
    exact ⟨tree,written⟩

-- No two trees have the same leaves.
theorem ValueTree.lexeme_inj {a b : ValueTree} (same : a.lexeme = b.lexeme) : a = b := by
  cases a <;> cases b <;> cases same <;> rfl

theorem FieldsTree.lexemes_ne_nil (tree : FieldsTree) : tree.lexemes ≠ [] := by
  cases tree <;> simp [FieldsTree.lexemes]

theorem FieldsTree.lexemes_inj {a b : FieldsTree} (same : a.lexemes = b.lexemes) : a = b := by
  -- The last field is split off from the right; a tree of one field leaves nothing before it.
  induction a generalizing b with
  | more earlier field value ih =>
    cases b with
    | more earlier' field' value' =>
      obtain ⟨before,last⟩ := List.append_inj' same rfl
      injection last with _ last
      injection last with field last
      injection last with _ last
      injection last with value _
      cases ih before
      cases field
      cases ValueTree.lexeme_inj value
      rfl
    | one field' value' =>
      have short := congrArg List.length same
      simp [FieldsTree.lexemes] at short
  | one field value =>
    cases b with
    | more earlier' field' value' =>
      have short := congrArg List.length same
      simp [FieldsTree.lexemes] at short
    | one field' value' =>
      injection same with field last
      injection last with _ last
      injection last with value _
      cases field
      cases ValueTree.lexeme_inj value
      rfl

theorem EventTree.lexemes_inj {a b : EventTree} (same : a.lexemes = b.lexemes) : a = b := by
  cases a with
  | filled name fields =>
    cases b with
    | filled name' fields' =>
      injection same with name same
      injection same with _ same
      obtain ⟨same,_⟩ := List.append_inj' same rfl
      cases name
      cases FieldsTree.lexemes_inj same
      rfl
    | bare name' =>
      injection same with _ same
      injection same with _ same
      exact absurd (List.append_inj' same rfl).1 fields.lexemes_ne_nil
  | bare name =>
    cases b with
    | filled name' fields' =>
      injection same with _ same
      injection same with _ same
      exact absurd (List.append_inj' same rfl).1.symm fields'.lexemes_ne_nil
    | bare name' =>
      cases same
      rfl

theorem TokenTree.lexemes_inj {a b : TokenTree} (same : a.lexemes = b.lexemes) : a = b := by
  cases a <;> cases b <;> cases same <;> rfl

-- Trees of different rules are told apart by what is read, trees of one rule by their parts.
theorem LineTree.lexemes_inj {a b : LineTree} (same : a.lexemes = b.lexemes) : a = b := by
  have read : a.sentence = b.sentence := by
    have parsed := sentenceOf?_tree a
    rw [same,sentenceOf?_tree b] at parsed
    exact (Option.some.inj parsed).symm
  cases a with
  | located event location =>
    cases b with
    | located event' location' =>
      obtain ⟨events,locations⟩ := List.append_inj' same rfl
      cases EventTree.lexemes_inj events
      cases locations
      rfl
    | event event' => simp [LineTree.sentence] at read
    | token token' => cases token' <;> cases read
  | event event =>
    cases b with
    | located event' location' => simp [LineTree.sentence] at read
    | event event' => exact congrArg LineTree.event (EventTree.lexemes_inj same)
    | token token' => cases token' <;> cases read
  | token token =>
    cases b with
    | located event' location' => cases token <;> cases read
    | event event' => cases token <;> cases read
    | token token' => exact congrArg LineTree.token (TokenTree.lexemes_inj same)

-- Lexemes with which a state comes to the end of a sentence.
def Progress.rest : Progress → List Lexeme
  | .start => [.name "Unit"]
  | .opened _ | .numbered _ _ | .fieldRead _ _ => [.rparen]
  | .fieldNamed _ _ _ => [.equals,.number 0,.rparen]
  | .valueDue _ _ _ => [.number 0,.rparen]
  | .fieldDue _ _ => [.name "tid",.equals,.number 0,.rparen]
  | .named _ | .tokenClosed _ _ | .closed _ _ | .located _ _ _ => []

theorem Progress.rest_completes (progress : Progress) :
    ∃ sentence, (Transcript.follow progress progress.rest).bind sentence? = some sentence := by
  cases progress <;> exact ⟨_,rfl⟩

-- Every state can still be completed: the states tell what a line can start with.
theorem viable_iff : Viable lexemes ↔ ∃ progress, follow .start lexemes = some progress := by
  constructor
  · rintro ⟨more,line⟩
    obtain ⟨sentence,parsed⟩ := isLine_iff_sentenceOf?.mp line
    rw [sentenceOf?,follow_append] at parsed
    obtain ⟨_,followed,_⟩ := Option.bind_eq_some_iff.mp parsed
    obtain ⟨progress,followed,_⟩ := Option.bind_eq_some_iff.mp followed
    exact ⟨progress,followed⟩
  · rintro ⟨progress,followed⟩
    refine ⟨progress.rest,isLine_iff_sentenceOf?.mpr ?_⟩
    rw [sentenceOf?,follow_append,followed]
    exact progress.rest_completes

theorem not_viable_iff : ¬Viable lexemes ↔ follow .start lexemes = none := by
  rw [viable_iff,← Option.isSome_iff_exists,Option.not_isSome_iff_eq_none]

-- A lexeme is the fault of a text if it is the first one that the states do not get over.
theorem parseFrom_unexpected_iff : parseFrom progress placed = .error (.unexpected found) ↔
    ∃ before after, placed = before ++ found :: after ∧
      (∃ next, follow progress (before.map (·.lexeme)) = some next) ∧
      follow progress (before.map (·.lexeme) ++ [found.lexeme]) = none := by
  induction placed generalizing progress with
  | nil =>
    rw [parseFrom]
    cases progress.sentence? <;> simp
  | cons first rest ih =>
    rw [parseFrom]
    cases stepped : progress.step? first.lexeme with
    | none =>
      constructor
      · intro fault
        cases fault
        exact ⟨[],rest,rfl,⟨progress,rfl⟩,by rw [List.map_nil,List.nil_append,follow,stepped]; rfl⟩
      · rintro ⟨before,after,split,⟨next,followed⟩,_⟩
        cases before with
        | nil => cases split; rfl
        | cons head before =>
          cases split
          rw [List.map_cons,follow,stepped] at followed
          cases followed
    | some next =>
      dsimp only
      rw [ih]
      constructor
      · rintro ⟨before,after,rfl,followed,stuck⟩
        refine ⟨first :: before,after,rfl,?_,?_⟩
        · rwa [List.map_cons,follow,stepped]
        · rwa [List.map_cons,List.cons_append,follow,stepped]
      · rintro ⟨before,after,split,followed,stuck⟩
        cases before with
        | nil =>
          cases split
          rw [List.map_nil,List.nil_append,follow,stepped] at stuck
          cases stuck
        | cons head before =>
          cases split
          rw [List.map_cons,follow,stepped] at followed
          rw [List.map_cons,List.cons_append,follow,stepped] at stuck
          exact ⟨before,after,rfl,followed,stuck⟩

theorem parseFrom_unexpectedEnd_iff : parseFrom progress placed = .error .unexpectedEnd ↔
    ∃ next, follow progress (placed.map (·.lexeme)) = some next ∧ next.sentence? = none := by
  induction placed generalizing progress with
  | nil =>
    rw [parseFrom,List.map_nil,follow]
    cases complete : progress.sentence? <;> simp [complete]
  | cons first rest ih =>
    rw [parseFrom,List.map_cons,follow]
    cases progress.step? first.lexeme with
    | none => simp
    | some next => exact ih

theorem parse_ok_iff {sentence : Sentence} : parse placed = .ok sentence ↔
    sentenceOf? (placed.map (·.lexeme)) = some sentence := parseFrom_ok_iff

theorem parse_ok_iff_isLine : (∃ sentence, parse placed = .ok sentence) ↔
    IsLine (placed.map (·.lexeme)) := by
  simp only [parse_ok_iff,isLine_iff_sentenceOf?]

theorem parse_tree {tree : LineTree} (written : tree.lexemes = placed.map (·.lexeme)) :
    parse placed = .ok tree.sentence := by
  rw [parse_ok_iff,← written]
  exact sentenceOf?_tree tree

theorem parse_unexpected_iff : parse placed = .error (.unexpected found) ↔
    ∃ before after, placed = before ++ found :: after ∧ Viable (before.map (·.lexeme)) ∧
      ¬Viable (before.map (·.lexeme) ++ [found.lexeme]) := by
  simp only [not_viable_iff]
  simp only [viable_iff]
  exact parseFrom_unexpected_iff

theorem parse_unexpectedEnd_iff : parse placed = .error .unexpectedEnd ↔
    Viable (placed.map (·.lexeme)) ∧ ¬IsLine (placed.map (·.lexeme)) := by
  rw [parse,parseFrom_unexpectedEnd_iff,viable_iff,isLine_iff_sentenceOf?,sentenceOf?]
  constructor
  · rintro ⟨progress,followed,incomplete⟩
    refine ⟨⟨progress,followed⟩,?_⟩
    rw [followed,Option.bind_some,incomplete]
    rintro ⟨sentence,impossible⟩
    cases impossible
  · rintro ⟨⟨progress,followed⟩,incomplete⟩
    rw [followed,Option.bind_some] at incomplete
    exact ⟨progress,followed,Option.eq_none_iff_forall_ne_some.mpr (not_exists.mp incomplete)⟩

theorem not_token_and_event (s : String) :
    ¬((∃ token, readToken s = .ok token) ∧ ∃ event, readEvent s = .ok event) := by
  rintro ⟨⟨token,literal⟩,event,read⟩
  rw [readToken] at literal
  rw [readEvent] at read
  cases sentence : readSentence s.toList with
  | error fault =>
    rw [sentence] at literal
    cases literal
  | ok sentence' =>
    rw [sentence] at literal read
    cases sentence' with
    | token => cases read
    | event => cases literal

-- The lexemes of a line are read as their only tree says. All others are refused at the first
-- one with which no line goes on, or at the end of what some line starts with; and no text is
-- both a token and an event.
theorem parse_grammar (placed : List Placed) (s : String) :
    ((∃ sentence, parse placed = .ok sentence) ↔ IsLine (placed.map (·.lexeme))) ∧
      (IsLine (placed.map (·.lexeme)) ↔ ∃! tree : LineTree, tree.lexemes = placed.map (·.lexeme)) ∧
      (∀ tree : LineTree, tree.lexemes = placed.map (·.lexeme) → parse placed = .ok tree.sentence) ∧
      (∀ found, parse placed = .error (.unexpected found) ↔
        ∃ before after, placed = before ++ found :: after ∧ Viable (before.map (·.lexeme)) ∧
          ¬Viable (before.map (·.lexeme) ++ [found.lexeme])) ∧
      (parse placed = .error .unexpectedEnd ↔
        Viable (placed.map (·.lexeme)) ∧ ¬IsLine (placed.map (·.lexeme))) ∧
      (∀ found : Placed, (Fault.sentence (.unexpected found)).message =
        "Syntax error at '" ++ found.lexeme.text ++ "' (type: " ++ found.lexeme.className ++
          ", index: " ++ Nat.repr found.start ++ ")") ∧
      (Fault.sentence .unexpectedEnd).message = "Syntax error: unexpected end of input" ∧
      ¬((∃ token, readToken s = .ok token) ∧ ∃ event, readEvent s = .ok event) := by
  refine ⟨parse_ok_iff_isLine,?_,fun _ => parse_tree,fun _ => parse_unexpected_iff,
    parse_unexpectedEnd_iff,fun _ => rfl,rfl,not_token_and_event s⟩
  rw [isLine_iff_tree]
  constructor
  · rintro ⟨tree,written⟩
    exact ⟨tree,written,fun other same => LineTree.lexemes_inj (same.trans written.symm)⟩
  · exact ExistsUnique.exists

end ProtocolNet.Transcript
