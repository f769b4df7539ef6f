import ProtocolNet.Proofs.EventLines

namespace ProtocolNet.Transcript

open Rule

namespace Rule

-- The longest text that a rule can take where another one starts.
structure Longest (rule : Rule) (s taken : List Char) : Prop where
  takes : rule.Takes taken
  starts : taken <+: s
  longest : ∀ other, rule.Takes other → other <+: s → other.length ≤ taken.length

def Matches (rule : Rule) (s : List Char) : Prop := ∃ taken, rule.Takes taken ∧ taken <+: s

-- The rule is the first one in the order of the rules that matches where a text starts.
def First (rule : Rule) (s : List Char) : Prop :=
  ∃ before behind, all = before ++ rule :: behind ∧ rule.Matches s ∧ ∀ other ∈ before, ¬other.Matches s

end Rule

-- The rule whose lexemes these are.
def Lexeme.rule : Lexeme → Rule
  | .name _ => .name
  | .number _ => .number
  | .string _ => .string
  | .location _ => .location
  | .lparen => .lparen
  | .rparen => .rparen
  | .comma => .comma
  | .equals => .equals

-- What is passed over in front of a text: blanks and tabs, line ends, and comments up to the end of
-- their lines.
inductive Filler (rest : List Char) : List Char → Prop
  | nil : Filler rest []
  | blank {c : Char} {gap : List Char} (blank : isGap c = true) (later : Filler rest gap) :
      Filler rest (c :: gap)
  | newline {gap : List Char} (later : Filler rest gap) : Filler rest ('\n' :: gap)
  | comment {text gap : List Char} (sameLine : '\n' ∉ text)
      (ended : Text.Stops (fun c => c ≠ '\n') (gap ++ rest)) (later : Filler rest gap) :
      Filler rest ('#' :: (text ++ gap))

-- A part of a text between two offsets, and what stands before and behind it.
structure Between (s : List Char) (start stop : Nat) (front part rest : List Char) : Prop where
  whole : s = front ++ (part ++ rest)
  begins : front.length = start
  ends : start + part.length = stop

def Gap (s : List Char) (start stop : Nat) : Prop :=
  ∃ front gap rest, Between s start stop front gap rest ∧ Filler rest gap

-- A lexeme stands in a text where its line and its offsets say. Its class is that of the first rule
-- that matches there, and it is made of all that the rule can take.
def Placed.Stands (s : List Char) (placed : Placed) : Prop :=
  ∃ front taken rest, Between s placed.start placed.stop front taken rest ∧
    placed.lexeme.rule.First (taken ++ rest) ∧ placed.lexeme.rule.Longest (taken ++ rest) taken ∧
    placed.lexeme.rule.lexeme taken = .ok (some placed.lexeme) ∧ placed.line = 1 + front.count '\n'

-- From one offset to another a text is made of lexemes and of gaps between them.
inductive Tiling (s : List Char) : Nat → List Placed → Nat → Prop
  | last {start finish : Nat} (gap : Gap s start finish) : Tiling s start [] finish
  | next {start finish : Nat} {placed : Placed} {later : List Placed} (gap : Gap s start placed.start)
      (stands : placed.Stands s) (rest : Tiling s placed.stop later finish) :
      Tiling s start (placed :: later) finish

-- Why a scan goes no further: the text is over, or no rule matches a character that is not passed
-- over, or a number stands there that is too long to be read.
inductive Ends (s : List Char) (finish : Nat) : Ending → Prop
  | endOfText (all : finish = s.length) : Ends s finish .endOfText
  | invalidCharacter {front rest : List Char} {c : Char} (whole : s = front ++ c :: rest)
      (here : front.length = finish) (solid : isGap c = false)
      (none : ∀ rule : Rule, ¬rule.Matches (c :: rest)) : Ends s finish (.invalidCharacter c finish)
  | longNumber {front digits rest : List Char} (whole : s = front ++ (digits ++ rest))
      (here : front.length = finish) (number : Rule.number.Longest (digits ++ rest) digits)
      (long : Text.digitLimit < digits.length) :
      Ends s finish (.longNumber (.tooLong digits.length))

-- A scan that goes on at an offset tiles the rest of the text up to where it ends.
def Tiles (s : List Char) (start : Nat) (scan : Scan) : Prop :=
  ∃ finish, Tiling s start scan.lexemes finish ∧ Ends s finish scan.ending

variable {rule : Rule} {c : Char} {p : Char → Bool} {n start stop finish line offset : Nat}
  {s rest later taken piece front back file column run : List Char} {placed : Placed}
  {lexemes : List Placed} {lexeme : Lexeme} {found : Scan}

namespace Rule

variable {line : List Char}

theorem length_le_runLength (inside : ∀ c ∈ run, p c = true) : run.length ≤ runLength p (run ++ rest) := by
  rw [runLength,List.takeWhile_append_of_pos inside,List.length_append]
  exact Nat.le_add_right _ _

theorem within_of_no_colon (free : ':' ∉ run) (same : run ++ rest = front ++ ':' :: back) :
    ∃ more, front = run ++ more ∧ rest = more ++ ':' :: back := by
  rcases List.append_eq_append_iff.mp same with ⟨more,rfl,rfl⟩ | ⟨more,rfl,whole⟩
  · exact ⟨more,rfl,rfl⟩
  · cases more with
    | nil => exact ⟨[],by simp,by simpa using whole.symm⟩
    | cons c more =>
      cases (List.cons.inj whole).1
      exact absurd (List.mem_append_right front List.mem_cons_self) free

theorem position?_longest (lined : line ≠ []) (lineDigits : ∀ c ∈ line, Text.isDigit c = true)
    (columned : column ≠ []) (columnDigits : ∀ c ∈ column, Text.isDigit c = true) : ∃ n,
      position? (positionChars line column ++ rest) = some n ∧ (positionChars line column).length ≤ n := by
  have inside : ∀ c ∈ column ++ rest.takeWhile Text.isDigit, Text.isDigit c = true :=
    List.forall_mem_append.mpr ⟨columnDigits,List.all_eq_true.mp List.all_takeWhile⟩
  have whole : positionChars line column ++ rest = positionChars line
      (column ++ rest.takeWhile Text.isDigit) ++ rest.dropWhile Text.isDigit := by
    simp [positionChars,List.takeWhile_append_dropWhile]
  have position := position?_of_digits lined lineDigits (List.append_ne_nil_of_left_ne_nil columned _)
    inside (Text.stops_dropWhile (p := Text.isDigit) (s := rest))
  refine ⟨_,whole ▸ position,?_⟩
  simp only [positionChars,List.length_cons,List.length_append]
  omega

-- A position that stands behind the first character of a file does not reach beyond the longest
-- location: where its colons are, the file has its last character before them or goes on.
theorem position_within (lineDigits : ∀ c ∈ line, Text.isDigit c = true)
    (columnDigits : ∀ c ∈ column, Text.isDigit c = true)
    (found : locationBody? (positionChars line column ++ rest) = some n) :
    (positionChars line column).length ≤ n := by
  obtain ⟨file,line',column',rest',same,rfl,parts⟩ := parts_of_locationBody? found
  obtain ⟨c,file,rfl⟩ := List.exists_cons_of_ne_nil parts.named
  have behind : line ++ ':' :: (column ++ rest) = file ++ ':' :: (line' ++ ':' :: (column' ++ rest')) := by
    simpa [positionChars,locationChars] using (List.cons.inj same).2
  obtain ⟨more,rfl,others⟩ := within_of_no_colon (colon_not_mem lineDigits) behind
  cases more with
  | nil =>
    obtain ⟨more,rfl,_⟩ := within_of_no_colon (colon_not_mem columnDigits) (List.cons.inj others).2
    simp only [positionChars,locationChars,List.length_cons,List.length_append]
    omega
  | cons d more =>
    obtain ⟨more,rfl,_⟩ := within_of_no_colon (colon_not_mem columnDigits) (List.cons.inj others).2
    simp only [positionChars,locationChars,List.length_cons,List.length_append]
    omega

theorem locationBody?_longest (parts : LocationParts file line column) : ∃ n,
    locationBody? (locationChars file line column ++ rest) = some n ∧
      (locationChars file line column).length ≤ n := by
  obtain ⟨named,plain,lined,lineDigits,columned,columnDigits⟩ := parts
  induction file with
  | nil => exact absurd rfl named
  | cons c file ih =>
    obtain ⟨first,others⟩ := List.forall_mem_cons.mp plain
    cases file with
    | nil =>
      obtain ⟨n,position,least⟩ := @position?_longest rest column line lined lineDigits columned columnDigits
      show ∃ n, locationBody? (c :: (positionChars line column ++ rest)) = some n ∧ _
      rw [locationBody?,if_pos first]
      cases inner : locationBody? (positionChars line column ++ rest) with
      | none => exact ⟨n + 1,by rw [position]; rfl,Nat.succ_le_succ least⟩
      | some m => exact ⟨m + 1,rfl,Nat.succ_le_succ (position_within lineDigits columnDigits inner)⟩
    | cons d file =>
      obtain ⟨n,inner,least⟩ := ih (List.cons_ne_nil _ _) others
      refine ⟨n + 1,?_,Nat.succ_le_succ least⟩
      show locationBody? (c :: (locationChars (d :: file) line column ++ rest)) = _
      rw [locationBody?,if_pos first,inner]

-- A rule matches wherever it can take anything, and then it takes no less.
theorem length?_longest (takes : rule.Takes taken) (starts : taken <+: s) :
    ∃ n, rule.length? s = some n ∧ taken.length ≤ n := by
  obtain ⟨rest,rfl⟩ := starts
  cases takes with
  | comment sameLine =>
    exact ⟨_,rfl,Nat.succ_le_succ (length_le_runLength fun c member => decide_eq_true (sameLine c member))⟩
  | newline ends =>
    exact ⟨_,rfl,Nat.succ_le_succ (length_le_runLength fun c member => decide_eq_true (ends c member))⟩
  | @location gap file line column gaps parts =>
    obtain ⟨n,inner,least⟩ := @locationBody?_longest rest file column line parts
    have stops : Text.Stops isGap (locationChars file line column ++ rest) := by
      obtain ⟨d,file,rfl⟩ := List.exists_cons_of_ne_nil parts.named
      refine Text.stops_cons.mpr (Bool.eq_false_iff.mpr fun gap => ?_)
      have solid := isBlank_of_isFileChar (parts.plain d List.mem_cons_self)
      rw [isBlank_of_isGap gap] at solid
      cases solid
    refine ⟨n + gap.length + 1,?_,?_⟩
    · rw [List.cons_append,List.append_assoc,length?,runLength_append gaps stops]
      simp only [List.drop_left,inner,Option.map_some]
    · rw [List.length_cons,List.length_append]
      omega
  | name start later => exact ⟨_,if_pos start,Nat.succ_le_succ (length_le_runLength later)⟩
  | number digits =>
    obtain ⟨first,others⟩ := List.forall_mem_cons.mp digits
    exact ⟨_,if_pos first,Nat.succ_le_succ (length_le_runLength others)⟩
  | string allowed => exact ⟨_,Lexes.length?_string allowed,Nat.le_refl _⟩
  | lparen | rparen | comma | equals => exact ⟨1,rfl,Nat.le_refl 1⟩

theorem Longest.of_length? (takes : rule.Takes taken)
    (found : rule.length? (taken ++ rest) = some taken.length) : rule.Longest (taken ++ rest) taken where
  takes := takes
  starts := List.prefix_append taken rest
  longest := by
    intro other takesToo starts
    obtain ⟨n,same,least⟩ := length?_longest takesToo starts
    rw [found] at same
    cases same
    exact least

theorem not_matches_of_length? (none : rule.length? s = none) : ¬rule.Matches s := by
  rintro ⟨taken,takes,starts⟩
  obtain ⟨n,found,_⟩ := length?_longest takes starts
  rw [none] at found
  cases found

theorem First.of_first? (found : first? s = some (rule,n)) : rule.First s := by
  obtain ⟨before,other,behind,whole,here,earlier⟩ := List.findSome?_eq_some_iff.mp found
  obtain ⟨length,matched,same⟩ := Option.map_eq_some_iff.mp here
  cases same
  obtain ⟨c,taken,rest,rfl,_,_,takes⟩ := length?_sound matched
  refine ⟨before,behind,whole,⟨c :: taken,takes,List.prefix_append _ rest⟩,fun other member => ?_⟩
  exact not_matches_of_length? (Option.map_eq_none_iff.mp (earlier other member))

theorem not_matches_of_first? (none : first? s = none) (rule : Rule) : ¬rule.Matches s := by
  have missed := List.findSome?_eq_none_iff.mp none rule (by cases rule <;> decide)
  exact not_matches_of_length? (Option.map_eq_none_iff.mp missed)

theorem rule_of_made (made : rule.lexeme taken = .ok (some lexeme)) : lexeme.rule = rule := by
  cases rule with
  | number =>
    rw [Rule.lexeme] at made
    split at made <;> cases made
    rfl
  | comment | newline => cases made
  | location | name | string | lparen | rparen | comma | equals => cases made; rfl

theorem long_of_refused {fault : Text.IntegerFault} (refused : rule.lexeme taken = .error fault) :
    rule = .number ∧ Text.digitLimit < taken.length ∧ fault = .tooLong taken.length := by
  cases rule with
  | number =>
    rw [Rule.lexeme,Text.readDigits] at refused
    by_cases short : taken.length ≤ Text.digitLimit
    · rw [if_pos short] at refused
      cases refused
    · rw [if_neg short] at refused
      cases refused
      exact ⟨rfl,Nat.lt_of_not_le short,rfl⟩
  | comment | newline | location | name | string | lparen | rparen | comma | equals => cases refused

-- Line ends are taken by their own rule alone, so that counting what it takes is counting them.
theorem Takes.count_newline (takes : rule.Takes taken) : taken.count '\n' = rule.lineEnds taken.length := by
  cases takes with
  | comment sameLine =>
    exact List.count_eq_zero.mpr (List.not_mem_cons_of_ne_of_not_mem (by decide) fun member =>
      sameLine _ member rfl)
  | @newline tail ends =>
    exact List.count_eq_length.mpr (List.forall_mem_cons.mpr ⟨rfl,fun c member => (ends c member).symm⟩)
  | location gaps parts =>
    refine List.count_eq_zero.mpr (List.not_mem_cons_of_ne_of_not_mem (by decide) fun member => ?_)
    rcases List.mem_append.mp member with inGap | inside
    · exact absurd (gaps _ inGap) (by decide)
    · exact absurd (parts.solid _ inside) (by decide)
  | name start later =>
    refine List.count_eq_zero.mpr fun member => ?_
    rcases List.mem_cons.mp member with rfl | inside
    · exact absurd start (by decide)
    · exact absurd (later _ inside) (by decide)
  | number digits => exact List.count_eq_zero.mpr fun member => absurd (digits _ member) (by decide)
  | string allowed =>
    refine List.count_eq_zero.mpr (List.not_mem_cons_of_ne_of_not_mem (by decide) fun member => ?_)
    rcases List.mem_append.mp member with inside | closing
    · exact allowed.sameLine inside
    · exact absurd (List.mem_singleton.mp closing) (by decide)
  | lparen | rparen | comma | equals => rfl

end Rule

theorem Filler.of_newlines {gap : List Char} (ends : ∀ c ∈ piece, c = '\n') (filler : Filler rest gap) :
    Filler rest (piece ++ gap) := by
  induction piece with
  | nil => exact filler
  | cons c piece ih =>
    obtain ⟨rfl,others⟩ := List.forall_mem_cons.mp ends
    exact .newline (ih others)

theorem stops_of_longest {tail : List Char}
    (longest : Rule.comment.Longest ('#' :: tail ++ later) ('#' :: tail))
    (sameLine : ∀ c ∈ tail, c ≠ '\n') : Text.Stops (fun c => c ≠ '\n') later := by
  cases later with
  | nil => exact Text.stops_nil
  | cons c later =>
    refine Text.stops_cons.mpr (decide_eq_false fun other => ?_)
    have more : Rule.comment.Takes ('#' :: (tail ++ [c])) :=
      .comment (List.forall_mem_append.mpr ⟨sameLine,List.forall_mem_singleton.mpr other⟩)
    have least := longest.longest _ more ⟨later,by simp⟩
    simp only [List.length_cons,List.length_append,List.length_nil] at least
    omega

-- What a rule takes that makes no lexeme is a part of a gap.
theorem Filler.of_rule {gap : List Char} (longest : rule.Longest (taken ++ (gap ++ rest)) taken)
    (made : rule.lexeme taken = .ok none) (filler : Filler rest gap) : Filler rest (taken ++ gap) := by
  cases longest.takes with
  | comment sameLine =>
    exact .comment (fun member => sameLine _ member rfl) (stops_of_longest longest sameLine) filler
  | newline ends => exact .newline (.of_newlines ends filler)
  | number =>
    rw [Rule.lexeme] at made
    split at made <;> cases made
  | location | name | string | lparen | rparen | comma | equals => cases made

theorem Gap.pass (whole : s = front ++ (piece ++ later))
    (passes : ∀ gap rest, later = gap ++ rest → Filler rest gap → Filler rest (piece ++ gap))
    (gap : Gap s (front.length + piece.length) stop) : Gap s front.length stop := by
  obtain ⟨front',gap,rest,⟨whole',begins,ends⟩,filler⟩ := gap
  have length : (front ++ piece).length = front'.length := by rw [List.length_append,begins]
  rw [whole,← List.append_assoc] at whole'
  obtain ⟨rfl,rfl⟩ := List.append_inj whole' length
  refine ⟨front,piece ++ gap,rest,⟨?_,rfl,?_⟩,passes gap rest rfl filler⟩
  · rw [whole,List.append_assoc]
  · rw [← ends,List.length_append,Nat.add_assoc]

theorem Tiles.pass (whole : s = front ++ (piece ++ later))
    (passes : ∀ gap rest, later = gap ++ rest → Filler rest gap → Filler rest (piece ++ gap))
    (tiles : Tiles s (front.length + piece.length) found) : Tiles s front.length found := by
  obtain ⟨finish,tiling,ends⟩ := tiles
  refine ⟨finish,?_,ends⟩
  generalize found.lexemes = lexemes at tiling ⊢
  cases tiling with
  | last gap => exact .last (gap.pass whole passes)
  | next gap stands rest => exact .next (gap.pass whole passes) stands rest

theorem Placed.Stands.gap (stands : placed.Stands s) : Gap s placed.start placed.start := by
  obtain ⟨front,taken,rest,between,_⟩ := stands
  exact ⟨front,[],taken ++ rest,⟨between.whole,between.begins,rfl⟩,.nil⟩

theorem Tiles.put (stands : placed.Stands s) (tiles : Tiles s placed.stop found) :
    Tiles s placed.start (found.put placed) := by
  obtain ⟨finish,tiling,ends⟩ := tiles
  exact ⟨finish,.next stands.gap stands tiling,ends⟩

theorem Ends.tiles {ending : Ending} (whole : s = front ++ rest) (ends : Ends s front.length ending) :
    Tiles s front.length ⟨[],ending⟩ :=
  ⟨front.length,.last ⟨front,[],rest,⟨whole,rfl,rfl⟩,.nil⟩,ends⟩

theorem Ends.of_short {ending : Ending} (ends : Ends s finish ending)
    (short : ∀ fault, ending ≠ .longNumber fault) :
    ending = .endOfText ∧ finish = s.length ∨ ∃ c, ending = .invalidCharacter c finish := by
  cases ends with
  | endOfText all => exact .inl ⟨rfl,all⟩
  | invalidCharacter => exact .inr ⟨_,rfl⟩
  | longNumber => exact absurd rfl (short _)

theorem lines_behind (takes : rule.Takes taken) (counted : line = 1 + front.count '\n') :
    line + rule.lineEnds taken.length = 1 + (front ++ taken).count '\n' := by
  rw [List.count_append,takes.count_newline,counted,Nat.add_assoc]

-- The invariant of a scan: behind what it has passed it stands at the length of that, in the line
-- that its line ends make, and it tiles the rest.
theorem Scanned.tiles (run : Scanned line offset rest found) (whole : s = front ++ rest)
    (here : offset = front.length) (counted : line = 1 + front.count '\n') : Tiles s offset found := by
  induction run generalizing front with
  | done =>
    subst here
    refine Ends.tiles whole (.endOfText ?_)
    rw [whole,List.append_nil]
  | @gap line offset c rest found blank _ ih =>
    subst here
    have sameLine : '\n' ∉ [c] := fun member => by
      rw [← List.mem_singleton.mp member] at blank
      exact absurd blank (by decide)
    have parts : s = front ++ ([c] ++ rest) := whole
    have lines : line = 1 + (front ++ [c]).count '\n' := by
      rw [counted,List.count_append,List.count_eq_zero.mpr sameLine,Nat.add_zero]
    refine Tiles.pass parts (fun _ _ _ filler => .blank blank filler) ?_
    exact ih (parts.trans (List.append_assoc ..).symm) (@List.length_append _ front [c]).symm lines
  | stuck solid none =>
    subst here
    exact Ends.tiles whole (.invalidCharacter whole rfl solid (not_matches_of_first? none))
  | refused takes first made =>
    subst here
    obtain ⟨rfl,long,rfl⟩ := long_of_refused made
    exact Ends.tiles whole (.longNumber whole rfl (.of_length? takes (first?_sound first)) long)
  | @passed line offset rule taken rest found takes first made _ ih =>
    subst here
    have longest := Longest.of_length? takes (first?_sound first)
    have later := ih (whole.trans (List.append_assoc ..).symm) List.length_append.symm
      (lines_behind takes counted)
    exact Tiles.pass whole (fun _ _ same filler => .of_rule (same ▸ longest) made filler) later
  | @put line offset rule taken rest lexeme found takes first made _ ih =>
    subst here
    have longest := Longest.of_length? takes (first?_sound first)
    have later := ih (whole.trans (List.append_assoc ..).symm) List.length_append.symm
      (lines_behind takes counted)
    have stands : Placed.Stands s ⟨lexeme,line,front.length,front.length + taken.length⟩ := by
      refine ⟨front,taken,rest,⟨whole,rfl,rfl⟩,?_⟩
      rw [rule_of_made made]
      exact ⟨.of_first? first,longest,made,counted⟩
    exact Tiles.put stands later

theorem Between.inside (between : Between s start stop front piece rest) : stop ≤ s.length := by
  obtain ⟨rfl,rfl,rfl⟩ := between
  simp only [List.length_append]
  omega

theorem Gap.bounds (gap : Gap s start stop) : start ≤ stop ∧ stop ≤ s.length := by
  obtain ⟨_,_,_,between,_⟩ := gap
  exact ⟨between.ends ▸ Nat.le_add_right _ _,between.inside⟩

theorem Placed.Stands.nonempty (stands : placed.Stands s) : placed.start < placed.stop := by
  obtain ⟨front,taken,rest,between,_,longest,_⟩ := stands
  obtain ⟨c,tail,rfl,_⟩ := longest.takes.solid
  rw [← between.ends,List.length_cons]
  omega

theorem Tiling.bounds (tiling : Tiling s start lexemes finish) : start ≤ finish ∧ finish ≤ s.length := by
  induction tiling with
  | last gap => exact gap.bounds
  | next gap stands _ ih =>
    have before := gap.bounds
    have nonempty := stands.nonempty
    omega

theorem Tiling.stands (tiling : Tiling s start lexemes finish) : ∀ placed ∈ lexemes, placed.Stands s := by
  induction tiling with
  | last => exact List.forall_mem_nil _
  | next gap stands rest ih => exact List.forall_mem_cons.mpr ⟨stands,ih⟩

theorem Tiling.spans (tiling : Tiling s start lexemes finish) : ∀ placed ∈ lexemes,
    start ≤ placed.start ∧ placed.start < placed.stop ∧ placed.stop ≤ finish := by
  induction tiling with
  | last gap => exact List.forall_mem_nil _
  | next gap stands rest ih =>
    have nonempty := stands.nonempty
    refine List.forall_mem_cons.mpr ⟨⟨gap.bounds.1,nonempty,rest.bounds.1⟩,fun other member => ?_⟩
    have before := gap.bounds
    have later := ih other member
    omega

theorem Tiling.apart (tiling : Tiling s start lexemes finish) :
    lexemes.Pairwise fun former latter => former.stop ≤ latter.start := by
  induction tiling with
  | last gap => exact .nil
  | next gap stands rest ih => exact .cons (fun other member => (rest.spans other member).1) ih

-- A scan tiles its text. Its lexemes stand one behind the other where they say, with nothing but
-- blanks, tabs, line ends and comments between them, up to where the scan ends: at the end of the
-- text, or where no rule matches, unless a number is too long.
theorem scan_tiles (s : List Char) : ∃ finish, Tiling s 0 (scan s).lexemes finish ∧
    Ends s finish (scan s).ending ∧ finish ≤ s.length ∧
    (∀ placed ∈ (scan s).lexemes, placed.start < placed.stop ∧ placed.stop ≤ finish) ∧
    ((scan s).lexemes.Pairwise fun former latter => former.stop ≤ latter.start) ∧
    (ShortNumerals s → (scan s).ending = .endOfText ∧ finish = s.length ∨
      ∃ c, (scan s).ending = .invalidCharacter c finish) := by
  obtain ⟨finish,tiling,ends⟩ := @Scanned.tiles 1 0 s s [] (scan s) (scanned_scanFrom s 1 0) rfl rfl rfl
  refine ⟨finish,tiling,ends,tiling.bounds.2,?_,tiling.apart,fun short => ends.of_short short.scan⟩
  intro placed member
  exact (tiling.spans placed member).2

-- Signs of comments inside of quotes are none, and the blank before the last sign is passed over.
example : scan "Lock # 7\n\n \"#\\\"\" ?".toList =
    ⟨[⟨.name "Lock",1,0,4⟩,⟨.string "#\"",3,11,16⟩],.invalidCharacter '?' 17⟩ := by rfl

end ProtocolNet.Transcript
