import ProtocolNet.Proofs.LocationText

namespace ProtocolNet.Transcript

namespace Rule

-- What may stand between quotes: a backslash takes the character behind it along,
-- and no line ends there.
inductive Inside : List Char → Prop
  | nil : Inside []
  | plain {c : Char} {rest : List Char} (noQuote : c ≠ '"') (noSlash : c ≠ '\\') (sameLine : c ≠ '\n')
      (later : Inside rest) : Inside (c :: rest)
  | pair {c : Char} {rest : List Char} (sameLine : c ≠ '\n') (later : Inside rest) :
      Inside ('\\' :: c :: rest)

-- What each rule can take.
inductive Takes : Rule → List Char → Prop
  | comment {tail : List Char} (sameLine : ∀ c ∈ tail, c ≠ '\n') : Takes .comment ('#' :: tail)
  | newline {tail : List Char} (ends : ∀ c ∈ tail, c = '\n') : Takes .newline ('\n' :: tail)
  | location {gap file line column : List Char} (gaps : ∀ c ∈ gap, isGap c = true)
      (parts : LocationParts file line column) :
      Takes .location ('@' :: (gap ++ locationChars file line column))
  | name {c : Char} {tail : List Char} (start : isNameStart c = true)
      (later : ∀ d ∈ tail, isNameRest d = true) : Takes .name (c :: tail)
  | number {c : Char} {tail : List Char} (digits : ∀ d ∈ c :: tail, Text.isDigit d = true) :
      Takes .number (c :: tail)
  | string {inside : List Char} (allowed : Inside inside) : Takes .string ('"' :: (inside ++ ['"']))
  | lparen : Takes .lparen ['(']
  | rparen : Takes .rparen [')']
  | comma : Takes .comma [',']
  | equals : Takes .equals ['=']

-- The only rule that can match at a character.
def ruleAt? (c : Char) : Option Rule :=
  if Text.isDigit c then some .number
  else if isNameStart c then some .name
  else
    match c with
    | '#' => some .comment
    | '\n' => some .newline
    | '@' => some .location
    | '"' => some .string
    | '(' => some .lparen
    | ')' => some .rparen
    | ',' => some .comma
    | '=' => some .equals
    | _ => none

variable {rule : Rule} {c d : Char} {p : Char → Bool} {s rest taken tail inside : List Char} {n : Nat}

theorem stringBody?_plain (noQuote : c ≠ '"') (noSlash : c ≠ '\\') (sameLine : c ≠ '\n') :
    stringBody? (c :: rest) = (stringBody? rest).map (· + 1) := by
  cases rest with
  | nil => exact if_neg noQuote
  | cons d rest => rw [stringBody?,if_neg noQuote,if_neg sameLine,if_neg noSlash]

theorem stringBody?_pair (sameLine : d ≠ '\n') :
    stringBody? ('\\' :: d :: rest) = (stringBody? rest).map (· + 2) := by
  rw [stringBody?,if_neg (by decide),if_neg (by decide),if_pos rfl,if_neg sameLine]

theorem stringBody?_close : stringBody? ('"' :: rest) = some 1 := by cases rest <;> rfl

theorem stringBody?_iff : stringBody? s = some n ↔
    ∃ inside rest, s = inside ++ '"' :: rest ∧ Inside inside ∧ n = inside.length + 1 := by
  constructor
  · intro found
    induction s using stringBody?.induct generalizing n with
    | case1 => cases found
    | case2 => exact ⟨[],[],rfl,.nil,(Option.some.inj found).symm⟩
    | case3 c other => rw [stringBody?,if_neg other] at found; cases found
    | case4 d rest =>
      rw [stringBody?_close] at found
      exact ⟨[],d :: rest,rfl,.nil,(Option.some.inj found).symm⟩
    | case5 d rest => rw [stringBody?] at found; cases found
    | case6 rest => rw [stringBody?] at found; cases found
    | case7 d rest sameLine _ _ ih =>
      rw [stringBody?_pair sameLine] at found
      obtain ⟨n,inner,rfl⟩ := Option.map_eq_some_iff.mp found
      obtain ⟨inside,tail,rfl,allowed,rfl⟩ := ih inner
      exact ⟨'\\' :: d :: inside,tail,rfl,.pair sameLine allowed,rfl⟩
    | case8 c d rest noQuote sameLine noSlash ih =>
      rw [stringBody?_plain noQuote noSlash sameLine] at found
      obtain ⟨n,inner,rfl⟩ := Option.map_eq_some_iff.mp found
      obtain ⟨inside,tail,same,allowed,rfl⟩ := ih inner
      exact ⟨c :: inside,tail,by rw [same]; rfl,.plain noQuote noSlash sameLine allowed,rfl⟩
  · rintro ⟨inside,rest,rfl,allowed,rfl⟩
    induction allowed with
    | nil => exact stringBody?_close
    | plain noQuote noSlash sameLine later ih =>
      rw [List.cons_append,stringBody?_plain noQuote noSlash sameLine,ih]
      rfl
    | pair sameLine later ih =>
      rw [List.cons_append,List.cons_append,stringBody?_pair sameLine,ih]
      rfl

theorem ruleAt?_digit (digit : Text.isDigit c = true) : ruleAt? c = some .number := if_pos digit

theorem ruleAt?_name (start : isNameStart c = true) : ruleAt? c = some .name := by
  have noDigit : ¬ Text.isDigit c = true := fun digit => by
    have other := Text.of_isDigit (p := fun c => isNameStart c = false) (by decide) digit
    rw [start] at other
    cases other
  unfold ruleAt?
  rw [if_neg noDigit,if_pos start]

theorem runLength_prefix (p : Char → Bool) (s : List Char) :
    ∃ run rest, s = run ++ rest ∧ runLength p s = run.length ∧ ∀ c ∈ run, p c = true :=
  ⟨s.takeWhile p,s.dropWhile p,List.takeWhile_append_dropWhile.symm,rfl,
    List.all_eq_true.mp List.all_takeWhile⟩

-- Whatever a rule matches, it is the rule of the first character, and it takes a
-- text of its shape.
theorem length?_sound (found : rule.length? s = some n) :
    ∃ c taken rest, s = c :: (taken ++ rest) ∧ n = taken.length + 1 ∧ ruleAt? c = some rule ∧
      rule.Takes (c :: taken) := by
  unfold length? at found
  split at found
  · rename_i later
    obtain ⟨run,rest,rfl,length,inside⟩ := runLength_prefix (fun c => decide (c ≠ '\n')) later
    rw [length] at found
    cases found
    exact ⟨_,run,rest,rfl,rfl,rfl,.comment fun c member => of_decide_eq_true (inside c member)⟩
  · rename_i later
    obtain ⟨run,rest,rfl,length,inside⟩ := runLength_prefix (fun c => decide (c = '\n')) later
    rw [length] at found
    cases found
    exact ⟨_,run,rest,rfl,rfl,rfl,.newline fun c member => of_decide_eq_true (inside c member)⟩
  · rename_i later
    obtain ⟨gap,body,rfl,length,gaps⟩ := runLength_prefix isGap later
    rw [length] at found
    dsimp only at found
    rw [List.drop_left] at found
    obtain ⟨n,inner,rfl⟩ := Option.map_eq_some_iff.mp found
    obtain ⟨file,line,column,rest,rfl,rfl,parts⟩ := parts_of_locationBody? inner
    refine ⟨_,gap ++ locationChars file line column,rest,?_,?_,rfl,.location gaps parts⟩
    · rw [List.append_assoc]
    · rw [List.length_append,Nat.add_comm gap.length]
  · rename_i c later
    split at found
    · rename_i start
      obtain ⟨run,rest,rfl,length,inside⟩ := runLength_prefix isNameRest later
      rw [length] at found
      cases found
      exact ⟨c,run,rest,rfl,rfl,ruleAt?_name start,.name start inside⟩
    · cases found
  · rename_i c later
    split at found
    · rename_i digit
      obtain ⟨run,rest,rfl,length,inside⟩ := runLength_prefix Text.isDigit later
      rw [length] at found
      cases found
      exact ⟨c,run,rest,rfl,rfl,ruleAt?_digit digit,
        .number (List.forall_mem_cons.mpr ⟨digit,inside⟩)⟩
    · cases found
  · obtain ⟨n,inner,rfl⟩ := Option.map_eq_some_iff.mp found
    obtain ⟨inside,rest,rfl,allowed,rfl⟩ := stringBody?_iff.mp inner
    refine ⟨_,inside ++ ['"'],rest,?_,?_,rfl,.string allowed⟩
    · rw [List.append_assoc]; rfl
    · rw [List.length_append]; rfl
  · cases found; exact ⟨_,[],_,rfl,rfl,rfl,.lparen⟩
  · cases found; exact ⟨_,[],_,rfl,rfl,rfl,.rparen⟩
  · cases found; exact ⟨_,[],_,rfl,rfl,rfl,.comma⟩
  · cases found; exact ⟨_,[],_,rfl,rfl,rfl,.equals⟩
  · cases found

theorem first?_sound (found : first? s = some (rule,n)) : rule.length? s = some n := by
  obtain ⟨other,_,here⟩ := List.exists_of_findSome?_eq_some found
  obtain ⟨length,matched,same⟩ := Option.map_eq_some_iff.mp here
  cases same
  exact matched

-- No rule stands in another one's way.
theorem first?_of_length? (found : rule.length? s = some n) : first? s = some (rule,n) := by
  have alone : ∀ other ∈ all, ∀ result, (other.length? s).map (other,·) = some result →
      result = (rule,n) := by
    intro other _ result matched
    obtain ⟨length,here,rfl⟩ := Option.map_eq_some_iff.mp matched
    obtain ⟨c,taken,rest,rfl,_,first,_⟩ := length?_sound found
    obtain ⟨d,taken',rest',same,_,first',_⟩ := length?_sound here
    rw [← (List.cons.inj same).1,first] at first'
    cases first'
    rw [found] at here
    cases here
    rfl
  cases result : first? s with
  | some pair =>
    obtain ⟨other,member,here⟩ := List.exists_of_findSome?_eq_some result
    rw [alone other member pair here]
  | none =>
    have missed := List.findSome?_eq_none_iff.mp result rule (by cases rule <;> decide)
    rw [found] at missed
    cases missed

theorem Takes.solid (takes : rule.Takes taken) : ∃ c tail, taken = c :: tail ∧ isGap c = false := by
  cases takes with
  | name start later =>
    refine ⟨_,_,rfl,Bool.eq_false_iff.mpr fun gap => ?_⟩
    simp only [isGap,Bool.or_eq_true,decide_eq_true_eq] at gap
    rcases gap with rfl | rfl <;> exact absurd start (by decide)
  | number digits =>
    exact ⟨_,_,rfl,Text.of_isDigit (p := fun c => isGap c = false) (by decide)
      (digits _ List.mem_cons_self)⟩
  | _ => exact ⟨_,_,rfl,by decide⟩

end Rule

-- A text that is scanned to its end, and the lexemes that it gives.
inductive Lexes : List Char → List Lexeme → Prop
  | done : Lexes [] []
  | gap {c : Char} {rest : List Char} {lexemes : List Lexeme} (blank : Rule.isGap c = true)
      (later : Lexes rest lexemes) : Lexes (c :: rest) lexemes
  | part {rule : Rule} {taken rest : List Char} {part : Option Lexeme} {lexemes : List Lexeme}
      (takes : rule.Takes taken) (longest : rule.length? (taken ++ rest) = some taken.length)
      (made : rule.lexeme taken = .ok part) (later : Lexes rest lexemes) :
      Lexes (taken ++ rest) (part.toList ++ lexemes)

-- A scan of a text that stands in a line and at an offset, step by step.
inductive Scanned : (line offset : Nat) → List Char → Scan → Prop
  | done {line offset : Nat} : Scanned line offset [] ⟨[],.endOfText⟩
  | gap {line offset : Nat} {c : Char} {rest : List Char} {found : Scan} (blank : Rule.isGap c = true)
      (later : Scanned line (offset + 1) rest found) : Scanned line offset (c :: rest) found
  | stuck {line offset : Nat} {c : Char} {rest : List Char} (solid : Rule.isGap c = false)
      (none : Rule.first? (c :: rest) = none) :
      Scanned line offset (c :: rest) ⟨[],.invalidCharacter c offset⟩
  | refused {line offset : Nat} {rule : Rule} {taken rest : List Char} {fault : Text.IntegerFault}
      (takes : rule.Takes taken) (first : Rule.first? (taken ++ rest) = some (rule,taken.length))
      (made : rule.lexeme taken = .error fault) :
      Scanned line offset (taken ++ rest) ⟨[],.longNumber fault⟩
  | passed {line offset : Nat} {rule : Rule} {taken rest : List Char} {found : Scan}
      (takes : rule.Takes taken) (first : Rule.first? (taken ++ rest) = some (rule,taken.length))
      (made : rule.lexeme taken = .ok none)
      (later : Scanned (line + rule.lineEnds taken.length) (offset + taken.length) rest found) :
      Scanned line offset (taken ++ rest) found
  | put {line offset : Nat} {rule : Rule} {taken rest : List Char} {lexeme : Lexeme} {found : Scan}
      (takes : rule.Takes taken) (first : Rule.first? (taken ++ rest) = some (rule,taken.length))
      (made : rule.lexeme taken = .ok (some lexeme))
      (later : Scanned (line + rule.lineEnds taken.length) (offset + taken.length) rest found) :
      Scanned line offset (taken ++ rest) (found.put ⟨lexeme,line,offset,offset + taken.length⟩)

variable {rule : Rule} {line offset : Nat} {s taken rest : List Char} {placed : List Placed}
  {lexemes : List Lexeme} {found : Scan}

theorem scanFrom_skip (taken rest : List Char) (line offset : Nat) :
    scanFrom taken.length line offset (taken ++ rest) =
      scanFrom 0 line (offset + taken.length) rest := by
  induction taken generalizing offset with
  | nil => rfl
  | cons c taken ih =>
    rw [List.length_cons,List.cons_append,scanFrom,ih,Nat.add_assoc,Nat.add_comm 1]

-- One step of a scan: what the rule takes becomes its lexeme, and the scan goes on behind it.
theorem scanFrom_takes (takes : rule.Takes taken)
    (longest : rule.length? (taken ++ rest) = some taken.length) (line offset : Nat) :
    scanFrom 0 line offset (taken ++ rest) =
      let next := scanFrom 0 (line + rule.lineEnds taken.length) (offset + taken.length) rest
      match rule.lexeme taken with
      | .ok none => next
      | .ok (some lexeme) => next.put ⟨lexeme,line,offset,offset + taken.length⟩
      | .error fault => ⟨[],.longNumber fault⟩ := by
  obtain ⟨c,tail,rfl,solid⟩ := takes.solid
  have front : (c :: (tail ++ rest)).take (tail.length + 1) = c :: tail := by simp
  have behind : offset + 1 + tail.length = offset + (tail.length + 1) := by omega
  rw [List.cons_append,List.length_cons] at longest
  rw [List.cons_append,scanFrom,solid,if_neg Bool.false_ne_true,Rule.first?_of_length? longest]
  cases made : rule.lexeme (c :: tail) with
  | error fault => simp only [front,made]
  | ok part =>
    cases part <;>
      simp only [front,made,Nat.add_sub_cancel,scanFrom_skip,List.length_cons,behind]

theorem scanFrom_part (takes : rule.Takes taken)
    (longest : rule.length? (taken ++ rest) = some taken.length) (line offset : Nat) :
    ∃ line' offset', scanFrom 0 line offset (taken ++ rest) =
      match rule.lexeme taken with
      | .ok none => scanFrom 0 line' offset' rest
      | .ok (some lexeme) =>
        (scanFrom 0 line' offset' rest).put ⟨lexeme,line,offset,offset + taken.length⟩
      | .error fault => ⟨[],.longNumber fault⟩ :=
  ⟨_,_,scanFrom_takes takes longest line offset⟩

theorem scanFrom_of_lexes (lexes : Lexes s lexemes) (line offset : Nat) : ∃ placed,
    scanFrom 0 line offset s = ⟨placed,.endOfText⟩ ∧ placed.map (·.lexeme) = lexemes := by
  induction lexes generalizing line offset with
  | done => exact ⟨[],rfl,rfl⟩
  | gap blank later ih =>
    rw [scanFrom,if_pos blank]
    exact ih _ _
  | @part rule taken rest part lexemes takes longest made later ih =>
    obtain ⟨line',offset',scanned⟩ := scanFrom_part takes longest line offset
    obtain ⟨placed,behind,rfl⟩ := ih line' offset'
    rw [scanned,made]
    cases part with
    | none => exact ⟨placed,behind,rfl⟩
    | some lexeme => exact ⟨_ :: placed,by rw [behind]; rfl,rfl⟩

-- Whatever a scan gives, it gives in one of these ways, each of which goes on with less text.
theorem scanned_scanFrom (s : List Char) (line offset : Nat) :
    Scanned line offset s (scanFrom 0 line offset s) := by
  induction size : s.length using Nat.strongRecOn generalizing s line offset with
  | ind bound ih =>
    cases s with
    | nil => exact .done
    | cons c rest =>
      by_cases blank : Rule.isGap c = true
      · rw [scanFrom,if_pos blank]
        exact .gap blank (ih rest.length (by rw [← size]; exact Nat.lt_succ_self _) _ _ _ rfl)
      · cases first : Rule.first? (c :: rest) with
        | none =>
          rw [scanFrom,if_neg blank,first]
          exact .stuck (Bool.eq_false_iff.mpr blank) first
        | some pair =>
          obtain ⟨rule,length⟩ := pair
          have longest := Rule.first?_sound first
          obtain ⟨d,taken,later,same,rfl,_,takes⟩ := Rule.length?_sound longest
          have smaller : later.length < bound := by
            rw [← size,same,List.length_cons,List.length_append]; omega
          rw [same,← List.cons_append] at first longest ⊢
          have behind := fun line offset => ih later.length smaller later line offset rfl
          rw [scanFrom_takes takes longest]
          cases made : rule.lexeme (d :: taken) with
          | error fault => exact .refused takes first made
          | ok part =>
            cases part with
            | none => exact .passed takes first made (behind _ _)
            | some lexeme => exact .put takes first made (behind _ _)

theorem Scanned.lexes (run : Scanned line offset s found) (ended : found.ending = .endOfText) :
    Lexes s (found.lexemes.map (·.lexeme)) := by
  induction run with
  | done => exact .done
  | gap blank later ih => exact .gap blank (ih ended)
  | stuck => cases ended
  | refused => cases ended
  | passed takes first made later ih => exact .part takes (Rule.first?_sound first) made (ih ended)
  | put takes first made later ih => exact .part takes (Rule.first?_sound first) made (ih ended)

theorem lexes_of_scanFrom (scanned : scanFrom 0 line offset s = ⟨placed,.endOfText⟩) :
    Lexes s (placed.map (·.lexeme)) := by
  have run := scanned_scanFrom s line offset
  rw [scanned] at run
  exact run.lexes rfl

theorem scan_iff : (∃ placed, scan s = ⟨placed,.endOfText⟩ ∧ placed.map (·.lexeme) = lexemes) ↔
    Lexes s lexemes := by
  constructor
  · rintro ⟨placed,scanned,rfl⟩
    exact lexes_of_scanFrom scanned
  · intro lexes
    exact scanFrom_of_lexes lexes 1 0

end ProtocolNet.Transcript
