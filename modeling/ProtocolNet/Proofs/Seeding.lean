import ProtocolNet.Monitor
import ProtocolNet.Proofs.Firing

namespace ProtocolNet

-- The place and token that a seed rule stands for, if its variable is bound.
def SeedRule.target? (rule : SeedRule) (binding : Binding) : Option (Str × Token) :=
  (binding.lookup rule.identifier).map fun token => (rule.place,token)

def seedTargets (binding : Binding) (rules : List SeedRule) : List (Str × Token) :=
  rules.filterMap (·.target? binding)

-- Contents once every target holds its token at least once. Rules that are
-- repeated, and targets that hold their token already, add nothing.
def seededCounts (counts : Counts) (targets : List (Str × Token)) : Counts := fun place token =>
  max (counts place token) (if (place,token) ∈ targets then 1 else 0)

theorem seededCounts_cons {counts : Counts} {pair : Str × Token}
    {targets : List (Str × Token)} {place : Str} {token : Token} :
    seededCounts counts (pair :: targets) place token =
      seededCounts (fun p t => max (counts p t) (if (p,t) = pair then 1 else 0)) targets place token := by
  unfold seededCounts
  by_cases hit : (place,token) = pair
  · simp only [hit,List.mem_cons,true_or,if_true]; split <;> omega
  · simp only [hit,List.mem_cons,false_or,if_false,Nat.max_zero]

theorem Engine.seed_transitions {engine : Engine} {place : Str} {token : Token} :
    (engine.seed place token).1.transitions = engine.transitions := by
  unfold Engine.seed; split <;> rfl

theorem Engine.count_seed {engine : Engine} {place probe : Str} {token other : Token} :
    (engine.seed place token).1.marking.count probe other =
      max (engine.marking.count probe other) (if (probe,other) = (place,token) then 1 else 0) := by
  unfold Engine.seed
  split
  · rename_i held
    rw [Marking.holds_iff] at held
    by_cases hit : (probe,other) = (place,token)
    · obtain ⟨rfl,rfl⟩ := Prod.mk.injEq .. ▸ hit
      simp only [if_true]; omega
    · simp only [if_neg hit]; omega
  · rename_i absent
    rw [Marking.holds_iff] at absent
    simp only [Marking.count_add]
    by_cases hit : (probe,other) = (place,token)
    · obtain ⟨rfl,rfl⟩ := Prod.mk.injEq .. ▸ hit
      simp only [and_self,if_true]; omega
    · have apart : ¬ (place = probe ∧ token = other) := fun equal => hit (by rw [equal.1,equal.2])
      simp only [if_neg hit,if_neg apart]; omega

-- A seed is told of exactly when it adds a copy.
theorem Engine.count_seed_told {engine : Engine} {place probe : Str} {token other : Token} :
    (engine.seed place token).1.marking.count probe other =
      engine.marking.count probe other +
        if (engine.seed place token).2 = true ∧ (place,token) = (probe,other) then 1 else 0 := by
  unfold Engine.seed
  split
  · simp
  · simp [Marking.count_add]

theorem Engine.seed_told_iff {engine : Engine} {place : Str} {token : Token} :
    (engine.seed place token).2 = true ↔ engine.marking.count place token = 0 := by
  unfold Engine.seed
  split
  · rename_i held
    rw [Marking.holds_iff] at held
    simp; omega
  · rename_i absent
    rw [Marking.holds_iff] at absent
    simp; omega

theorem Engine.count_seed_zero {engine : Engine} {place : Str} {token : Token} {pair : MissingToken} :
    (engine.seed place token).1.marking.count pair.1 pair.2 = 0 ↔
      engine.marking.count pair.1 pair.2 = 0 ∧ pair ≠ (place,token) := by
  obtain ⟨probe,other⟩ := pair
  rw [Engine.count_seed]
  split <;> simp_all

section Targets

variable {binding : Binding} {rule : SeedRule} {rest : List SeedRule} {token : Token}

theorem seedTargets_unbound (unbound : binding.lookup rule.identifier = none) :
    seedTargets binding (rule :: rest) = seedTargets binding rest := by
  simp [seedTargets,SeedRule.target?,unbound]

theorem seedTargets_bound (bound : binding.lookup rule.identifier = some token) :
    seedTargets binding (rule :: rest) = (rule.place,token) :: seedTargets binding rest := by
  simp [seedTargets,SeedRule.target?,bound]

end Targets

namespace Monitor

-- Why it cannot be told that a token was seeded.
def seedFault? (logger : Logger) (pair : MissingToken) : Option TextFault :=
  match tellSeed logger pair.1 pair.2 with
  | .ok _ => none
  | .error fault => some fault

variable {binding : Binding} {engine : Engine} {rule : SeedRule} {rules rest : List SeedRule}
  {logger : Logger} {token : Token} {fault : TextFault}

-- A stream that is not strict takes the message of every token that can be written.
theorem seedFault?_plain {pair : MissingToken} (plain : logger.strict = false) :
    seedFault? logger pair = if pair.2.isWritable then none else some .unwritable := by
  unfold seedFault? tellSeed Logger.write
  cases pair.2.isWritable <;> simp [plain]

-- So does any stream where the place has a name without halves of pairs.
theorem seedFault?_ofString {place : String} :
    seedFault? logger (↑place,token) = if token.isWritable then none else some .unwritable := by
  have encoded : ∃ s : String, Console.debug logger.level
      ("Seeded " ++ token.text ++ " into '" ++ place ++ "'") [] = ↑s := by
    unfold Console.debug Console.shownFrom Console.line
    split
    · exact ⟨"[DEBUG] " ++ ("Seeded " ++ token.text ++ " into '" ++ place ++ "'") ++ "\n",
        by simp [Console.detailLines]⟩
    · exact ⟨"",rfl⟩
  obtain ⟨s,same⟩ := encoded
  unfold seedFault? tellSeed Logger.write
  rw [same]
  cases token.isWritable <;> cases logger.strict <;> simp [Except.map]

theorem seed_cons_unbound (unbound : binding.lookup rule.identifier = none) :
    seed logger binding engine (rule :: rest) = seed logger binding engine rest := by
  rw [seed,unbound]

theorem seed_cons_held (bound : binding.lookup rule.identifier = some token)
    (held : (engine.seed rule.place token).2 = false) :
    seed logger binding engine (rule :: rest) =
      seed logger binding (engine.seed rule.place token).1 rest := by
  rw [seed,bound]
  dsimp only
  rcases next : engine.seed rule.place token with ⟨engine',told⟩
  rw [next] at held
  dsimp only at held
  subst held
  rfl

-- The token is in its place before it turns out that it cannot be told of.
theorem seed_cons_mute (bound : binding.lookup rule.identifier = some token)
    (added : (engine.seed rule.place token).2 = true)
    (mute : seedFault? logger (rule.place,token) = some fault) :
    seed logger binding engine (rule :: rest) =
      ⟨(engine.seed rule.place token).1,[(rule.place,token)],[],some fault⟩ := by
  rw [seed,bound]
  dsimp only
  rcases next : engine.seed rule.place token with ⟨engine',told⟩
  rw [next] at added
  dsimp only at added
  subst added
  unfold seedFault? at mute
  cases told : tellSeed logger rule.place token with
  | ok output => simp [told] at mute
  | error fault' =>
    simp only [told,Option.some.injEq] at mute
    rw [mute]

theorem seed_cons_told (bound : binding.lookup rule.identifier = some token)
    (added : (engine.seed rule.place token).2 = true)
    (told : seedFault? logger (rule.place,token) = none) :
    let first := seed logger binding engine (rule :: rest)
    let later := seed logger binding (engine.seed rule.place token).1 rest
    first.engine = later.engine ∧ first.seeded = (rule.place,token) :: later.seeded ∧
      first.fault = later.fault := by
  rw [seed,bound]
  dsimp only
  rcases next : engine.seed rule.place token with ⟨engine',told⟩
  rw [next] at added
  dsimp only at added
  subst added
  unfold seedFault? at told
  cases said : tellSeed logger rule.place token with
  | ok output => exact ⟨rfl,rfl,rfl⟩
  | error fault => simp [said] at told

-- How rules are gone through: the pairs that are seeded, and what stops the seeding.
inductive Seeds (logger : Logger) (binding : Binding) :
    Engine → List SeedRule → Engine → List MissingToken → Option TextFault → Prop
  | done {engine : Engine} : Seeds logger binding engine [] engine [] none
  | unbound {engine last : Engine} {rule : SeedRule} {rest : List SeedRule}
      {pairs : List MissingToken} {fault : Option TextFault}
      (unbound : binding.lookup rule.identifier = none)
      (later : Seeds logger binding engine rest last pairs fault) :
      Seeds logger binding engine (rule :: rest) last pairs fault
  | held {engine last : Engine} {rule : SeedRule} {rest : List SeedRule} {token : Token}
      {pairs : List MissingToken} {fault : Option TextFault}
      (bound : binding.lookup rule.identifier = some token)
      (held : (engine.seed rule.place token).2 = false)
      (later : Seeds logger binding (engine.seed rule.place token).1 rest last pairs fault) :
      Seeds logger binding engine (rule :: rest) last pairs fault
  | mute {engine : Engine} {rule : SeedRule} {rest : List SeedRule} {token : Token}
      {fault : TextFault} (bound : binding.lookup rule.identifier = some token)
      (added : (engine.seed rule.place token).2 = true)
      (mute : seedFault? logger (rule.place,token) = some fault) :
      Seeds logger binding engine (rule :: rest) (engine.seed rule.place token).1
        [(rule.place,token)] (some fault)
  | told {engine last : Engine} {rule : SeedRule} {rest : List SeedRule} {token : Token}
      {pairs : List MissingToken} {fault : Option TextFault}
      (bound : binding.lookup rule.identifier = some token)
      (added : (engine.seed rule.place token).2 = true)
      (told : seedFault? logger (rule.place,token) = none)
      (later : Seeds logger binding (engine.seed rule.place token).1 rest last pairs fault) :
      Seeds logger binding engine (rule :: rest) last ((rule.place,token) :: pairs) fault

theorem seeds (engine : Engine) (rules : List SeedRule) :
    let seeding := seed logger binding engine rules
    Seeds logger binding engine rules seeding.engine seeding.seeded seeding.fault := by
  induction rules generalizing engine with
  | nil => exact .done
  | cons rule rest ih =>
    cases bound : binding.lookup rule.identifier with
    | none => rw [seed_cons_unbound bound]; exact .unbound bound (ih engine)
    | some token =>
      cases added : (engine.seed rule.place token).2 with
      | false => rw [seed_cons_held bound added]; exact .held bound added (ih _)
      | true =>
        cases said : seedFault? logger (rule.place,token) with
        | some fault => rw [seed_cons_mute bound added said]; exact .mute bound added said
        | none =>
          intro seeding
          obtain ⟨engines,lists,faults⟩ := seed_cons_told bound added said
          rw [engines,lists,faults]
          exact .told bound added said (ih _)

namespace Seeds

variable {last : Engine} {pairs : List MissingToken} {stop : Option TextFault}

theorem transitions (seeds : Seeds logger binding engine rules last pairs stop) :
    last.transitions = engine.transitions := by
  induction seeds with
  | done => rfl
  | unbound _ _ ih => exact ih
  | held _ _ _ ih => exact ih.trans Engine.seed_transitions
  | mute => exact Engine.seed_transitions
  | told _ _ _ _ ih => exact ih.trans Engine.seed_transitions

-- The seeded pairs account for the whole difference.
theorem count (seeds : Seeds logger binding engine rules last pairs stop) (place : Str)
    (token : Token) : last.marking.count place token =
      engine.marking.count place token + pairs.count (place,token) := by
  induction seeds with
  | done => simp
  | unbound _ _ ih => exact ih
  | held _ held _ ih => rw [ih,Engine.count_seed_told,held]; simp
  | mute _ added _ => rw [Engine.count_seed_told,added]; simp [List.count_cons]
  | told _ added _ _ ih => rw [ih,Engine.count_seed_told,added]; simp [List.count_cons]; omega

theorem unique (seeds : Seeds logger binding engine rules last pairs stop) :
    (seed logger binding engine rules).engine = last ∧
      (seed logger binding engine rules).seeded = pairs ∧
      (seed logger binding engine rules).fault = stop := by
  induction seeds with
  | done => exact ⟨rfl,rfl,rfl⟩
  | unbound unbound _ ih => rw [seed_cons_unbound unbound]; exact ih
  | held bound held _ ih => rw [seed_cons_held bound held]; exact ih
  | mute bound added mute => rw [seed_cons_mute bound added mute]; exact ⟨rfl,rfl,rfl⟩
  | told bound added told _ ih =>
    obtain ⟨engines,lists,faults⟩ := seed_cons_told bound added told
    obtain ⟨last,pairs,stop⟩ := ih
    exact ⟨engines.trans last,lists.trans (congrArg (_ :: ·) pairs),faults.trans stop⟩

-- Only what is absent is seeded, and only for a rule.
theorem absent (seeds : Seeds logger binding engine rules last pairs stop) : ∀ pair ∈ pairs,
    pair ∈ seedTargets binding rules ∧ engine.marking.count pair.1 pair.2 = 0 := by
  induction seeds with
  | done => exact fun pair member => absurd member List.not_mem_nil
  | unbound unbound _ ih => rw [seedTargets_unbound unbound]; exact ih
  | held bound _ _ ih =>
    intro pair member
    obtain ⟨target,absent⟩ := ih pair member
    rw [seedTargets_bound bound]
    exact ⟨List.mem_cons_of_mem _ target,(Engine.count_seed_zero.mp absent).1⟩
  | mute bound added _ =>
    intro pair member
    rw [List.mem_singleton.mp member,seedTargets_bound bound]
    exact ⟨List.mem_cons_self,Engine.seed_told_iff.mp added⟩
  | told bound added _ _ ih =>
    intro pair member
    rw [seedTargets_bound bound]
    rcases List.mem_cons.mp member with rfl | later
    · exact ⟨List.mem_cons_self,Engine.seed_told_iff.mp added⟩
    · obtain ⟨target,absent⟩ := ih pair later
      exact ⟨List.mem_cons_of_mem _ target,(Engine.count_seed_zero.mp absent).1⟩

-- Nothing is seeded twice, for it is there after the first time.
theorem once (seeds : Seeds logger binding engine rules last pairs stop) : pairs.Nodup := by
  induction seeds with
  | done => exact .nil
  | unbound _ _ ih | held _ _ _ ih => exact ih
  | mute => exact List.pairwise_singleton _ _
  | told _ _ _ later ih =>
    exact List.nodup_cons.mpr
      ⟨fun member => (Engine.count_seed_zero.mp (later.absent _ member).2).2 rfl,ih⟩

-- Seeding that is not stopped fills every target.
theorem filled (seeds : Seeds logger binding engine rules last pairs stop) (unstopped : stop = none)
    (place : Str) (token : Token) : last.marking.count place token =
      seededCounts engine.marking.count (seedTargets binding rules) place token := by
  induction seeds with
  | done => simp [seededCounts,seedTargets]
  | unbound unbound _ ih => rw [seedTargets_unbound unbound]; exact ih unstopped
  | mute => cases unstopped
  | held bound _ _ ih | told bound _ _ _ ih =>
    rw [ih unstopped,seedTargets_bound bound,seededCounts_cons]
    simp only [seededCounts,Engine.count_seed]

-- It is stopped exactly by an absent target that cannot be told of.
theorem stop_eq_none_iff (seeds : Seeds logger binding engine rules last pairs stop) :
    stop = none ↔ ∀ pair ∈ seedTargets binding rules,
      engine.marking.count pair.1 pair.2 = 0 → seedFault? logger pair = none := by
  induction seeds with
  | done => exact iff_of_true rfl fun pair member => absurd member List.not_mem_nil
  | unbound unbound _ ih => rw [seedTargets_unbound unbound]; exact ih
  | held bound held _ ih =>
    rw [ih,seedTargets_bound bound,List.forall_mem_cons]
    simp only [Engine.count_seed_zero]
    have there := (not_congr Engine.seed_told_iff).mp (by rw [held]; exact Bool.false_ne_true)
    refine ⟨fun later => ⟨fun absent => absurd absent there,fun pair member absent => ?_⟩,
      fun both pair member absent => both.2 pair member absent.1⟩
    exact later pair member ⟨absent,fun same => there (by rw [same] at absent; exact absent)⟩
  | mute bound added mute =>
    refine iff_of_false (Option.some_ne_none _) fun all => ?_
    rw [seedTargets_bound bound] at all
    rw [all _ List.mem_cons_self (Engine.seed_told_iff.mp added)] at mute
    cases mute
  | @told engine _ rule _ token _ _ bound added told _ ih =>
    rw [ih,seedTargets_bound bound,List.forall_mem_cons]
    simp only [Engine.count_seed_zero]
    refine ⟨fun later => ⟨fun _ => told,fun pair member absent => ?_⟩,
      fun both pair member absent => both.2 pair member absent.1⟩
    by_cases same : pair = (rule.place,token)
    · rw [same]; exact told
    · exact later pair member ⟨absent,same⟩

-- What stops the seeding is the last token that was seeded.
theorem stopped {fault : TextFault} (seeds : Seeds logger binding engine rules last pairs stop)
    (halted : stop = some fault) :
    ∃ front pair, pairs = front ++ [pair] ∧ seedFault? logger pair = some fault := by
  induction seeds with
  | done => cases halted
  | unbound _ _ ih | held _ _ _ ih => exact ih halted
  | mute _ _ mute => exact ⟨[],_,rfl,mute.trans halted⟩
  | told _ _ _ _ ih =>
    obtain ⟨front,pair,divided,mute⟩ := ih halted
    exact ⟨_ :: front,pair,congrArg (_ :: ·) divided,mute⟩

end Seeds

theorem seed_transitions : (seed logger binding engine rules).engine.transitions =
    engine.transitions := (seeds engine rules).transitions

theorem count_seed_told (place : Str) (token : Token) :
    (seed logger binding engine rules).engine.marking.count place token =
      engine.marking.count place token +
        (seed logger binding engine rules).seeded.count (place,token) :=
  (seeds engine rules).count place token

theorem count_seed (unstopped : (seed logger binding engine rules).fault = none) (place : Str)
    (token : Token) : (seed logger binding engine rules).engine.marking.count place token =
      seededCounts engine.marking.count (seedTargets binding rules) place token :=
  (seeds engine rules).filled unstopped place token

theorem unseed_cons (pair : MissingToken) (pairs : List MissingToken) :
    unseed engine (pair :: pairs) = unseed (engine.withdraw pair.1 pair.2).1 pairs := rfl

theorem unseed_transitions {pairs : List MissingToken} :
    (unseed engine pairs).transitions = engine.transitions := by
  induction pairs generalizing engine with
  | nil => rfl
  | cons pair rest ih => rw [unseed_cons,ih]; rfl

theorem count_unseed {pairs : List MissingToken} (place : Str) (token : Token) :
    (unseed engine pairs).marking.count place token =
      engine.marking.count place token - pairs.count (place,token) := by
  induction pairs generalizing engine with
  | nil => simp [unseed]
  | cons pair rest ih =>
    obtain ⟨spot,other⟩ := pair
    have taken : (engine.withdraw spot other).1.marking.count place token =
        engine.marking.count place token - if spot = place ∧ other = token then 1 else 0 :=
      Marking.count_withdraw_one
    rw [unseed_cons,ih,taken]
    simp [List.count_cons]; omega

-- Withdrawing what was seeded gives back the contents from before.
theorem count_unseed_seed (place : Str) (token : Token) :
    let seeding := seed logger binding engine rules
    (unseed seeding.engine seeding.seeded).marking.count place token =
      engine.marking.count place token := by
  intro seeding
  rw [count_unseed,count_seed_told,Nat.add_sub_cancel]

end Monitor

end ProtocolNet
