import ProtocolNet.Proofs.EventCodec
import ProtocolNet.Proofs.Executions
import ProtocolNet.Proofs.Mutex
import ProtocolNet.Proofs.Pictures

namespace ProtocolNet

namespace Trace

variable {files files' : Files} {path : Path} {entries : List Entry}

theorem read_of_entries (read : Trace.entries files path = (entries,none)) :
    ∃ bytes, files.read path = .ok bytes := by
  unfold Trace.entries openSource Files.openStream at read
  cases found : files.read path with
  | ok bytes => exact ⟨bytes,rfl⟩
  | error fault =>
    rw [found] at read
    cases there : files.pathExists path with
    | error fault => rw [there] at read; cases read
    | ok present => rw [there] at read; cases present <;> cases read

theorem entries_of_readAll (read : readAll files path = .ok entries) :
    Trace.entries files path = (entries,none) := by
  unfold readAll at read
  split at read
  · rename_i found
    cases read
    exact found
  · cases read

-- The entries of a trace come from its bytes alone.
theorem entries_congr {bytes : Text.Utf8.Bytes} (read : files.read path = .ok bytes)
    (read' : files'.read path = .ok bytes) : Trace.entries files path = Trace.entries files' path := by
  unfold Trace.entries openSource Files.openStream
  rw [pathExists_of_read read,pathExists_of_read read',read,read']

end Trace

namespace Monitor

variable {net : Net} {config : Config} {logger : Logger} {room : Nat} {files : Files}
  {started : Started} {journal : Option Journal}

-- How a log stands when a monitor is ready: there is none, or it was emptied.
inductive Opened (config : Config) (files : Files) : Option Journal → Files → Prop where
  | unlogged : Opened config files none files
  | logged {log : Path} {journal : Journal} {files' : Files} (named : config.logPath = some log)
      (place : journal.path = log) (emptied : files.writeText log "" = .ok files') :
      Opened config files (some journal) files'

theorem launch_opened (launched : launch net (some config) logger room files = .ok started) :
    ∃ journal, started.monitor = startWith net (some config) logger journal ∧
      Opened config files journal started.files := by
  unfold launch at launched
  dsimp only [Option.bind_some] at launched
  split at launched
  · cases launched
    exact ⟨none,rfl,.unlogged⟩
  · rename_i log named
    unfold Journal.create at launched
    cases emptied : files.writeText log "" with
    | ok files' =>
      rw [emptied] at launched
      cases launched
      exact ⟨_,rfl,.logged named rfl emptied⟩
    | error fault =>
      rw [emptied] at launched
      cases fault with
      | nullCharacter => cases launched
      | refused problem path =>
        cases launched
        exact ⟨none,rfl,.unlogged⟩

theorem load_opened (read : Net.ofFile files config.netPath = .ok net)
    (loaded : load config logger room files = .ok started) :
    ∃ journal, started.monitor = startWith net (some config) logger journal ∧
      Opened config files journal started.files := by
  rw [load,read] at loaded
  dsimp only at loaded
  cases launched : launch net (some config) logger room files with
  | error fault => rw [launched] at loaded; cases loaded
  | ok ready =>
    rw [launched] at loaded
    cases loaded
    obtain ⟨journal,ready,opened⟩ := launch_opened launched
    exact ⟨journal,ready,opened⟩

theorem sameTree_filesNow {monitor : Monitor} : Files.SameTree files (monitor.filesNow files) := by
  unfold filesNow Journal.flush
  split
  · split
    · rename_i written
      exact Files.sameTree_write written
    · exact .refl
  · exact .refl

end Monitor

namespace Replay

open CommandLine (Options)
open Event (bind_ok)
open Trace (Entry)
open Monitor (Config Opened load_opened sameTree_filesNow startWith startWith_attached)

variable {config : Config} {logger : Logger} {files files' left right : Files}
  {journal : Option Journal} {path : Path} {entries : List Entry} {stage : Stage} {options : Options}
  {traces : List Path} {monitor monitor' : Monitor} {plan : Plan} {aborted : Bool}
  {renderer : Drawing.Renderer}

-- A trace that is not the log is the same before and after the log is emptied.
theorem entries_opened (opened : Opened config files journal files')
    (apart : ∀ log, config.logPath = some log → ¬files.Meet log path)
    (read : Trace.entries files path = (entries,none)) : Trace.entries files' path = (entries,none) := by
  cases opened with
  | unlogged => exact read
  | logged named _ emptied =>
    obtain ⟨bytes,found⟩ := Trace.read_of_entries read
    have found' := Files.read_write_apart emptied (apart _ named) found
    rw [← Trace.entries_congr found found',read]

theorem isLog_opened (opened : Opened config files journal files')
    (held : stage.monitor.journal = journal)
    (apart : ∀ log, config.logPath = some log → ¬files.Meet log path) :
    isLog files' stage path = false := by
  unfold isLog
  cases opened with
  | unlogged => rw [held]
  | @logged log journal _ named place emptied =>
    have same := (Files.sameTree_write emptied).symm
    rw [held]
    dsimp only
    split
    · rename_i logged spot led led'
      refine decide_eq_false fun equal => apart log named ⟨logged,spot,?_,same.spot led',?_⟩
      · exact same.spot (place ▸ led)
      · rw [equal]
    · rfl

theorem conclude_exit : (conclude renderer options files stage aborted).exit =
    if (draw renderer options stage.monitor (stage.monitor.filesNow files)).2 = none then
      if stage.host.violations.isEmpty then 0 else 1
    else 2 := by
  unfold conclude
  dsimp only
  cases draw renderer options stage.monitor (stage.monitor.filesNow files) with
  | mk drawn fault => cases fault <;> rfl

theorem exists_of_isOk {ε α : Type} {result : Except ε α} (ok : result.isOk = true) :
    ∃ value, result = .ok value := by
  cases result with
  | ok value => exact ⟨value,rfl⟩
  | error fault => cases ok

theorem forM_ok_iff {demands : Path → Except Refusal Unit} :
    traces.forM demands = .ok () ↔ ∀ path ∈ traces, demands path = .ok () := by
  induction traces with
  | nil => exact ⟨fun _ _ member => (nomatch member),fun _ => rfl⟩
  | cons path rest ih =>
    rw [List.forall_mem_cons,← ih]
    show (demands path >>= fun _ => rest.forM demands) = _ ↔ _
    cases demands path with
    | ok => exact ⟨fun later => ⟨rfl,later⟩,fun both => both.2⟩
    | error refusal => exact ⟨fun failed => (nomatch failed),fun both => nomatch both.1⟩

theorem plan_lenient (planned : Replay.plan files options = .ok plan)
    (continuing : options.keepGoing = true) : plan.config.failFast = false := by
  unfold Replay.plan at planned
  split at planned
  · obtain ⟨_,_,planned⟩ := bind_ok planned
    obtain ⟨_,_,planned⟩ := bind_ok planned
    split at planned
    · rw [continuing] at planned
      dsimp only at planned
      split at planned <;> cases planned <;> rfl
    · cases planned
  · cases planned

-- The order of traces plays no part in whether a replay starts.
theorem plan_perm (planned : Replay.plan files options = .ok plan) (perm : traces.Perm options.traces) :
    Replay.plan files { options with traces } = .ok plan := by
  unfold Replay.plan at planned ⊢
  dsimp only at planned ⊢
  split at planned
  · rename_i netPath given
    obtain ⟨_,_,rest⟩ := bind_ok planned
    obtain ⟨_,found,_⟩ := bind_ok rest
    have found' : (traces.forM fun path => demand files path (.noTrace path.text)) = .ok () :=
      forM_ok_iff.mpr fun path member => forM_ok_iff.mp found path (perm.mem_iff.mp member)
    rw [found']
    rw [found] at planned
    exact planned
  · cases planned

-- The stage of a run before its first trace.
def Stage.fresh (started : Monitor.Started) : Stage := ⟨⟨started.monitor,true,[]⟩,started.output⟩

variable {room : Nat} {net : Net} {started : Monitor.Started}

theorem fresh_going (ready : started.monitor = startWith net (some config) logger journal)
    (lenient : config.failFast = false) :
    Fresh (.fresh started) ∧ Going started.monitor (.fresh started) := by
  have same : (Stage.fresh started).monitor = startWith net (some config) logger journal := ready
  refine ⟨⟨rfl,rfl,?_⟩,rfl,?_,.refl⟩
  · rw [same]
    rfl
  · rw [same]
    exact lenient

-- A host that goes on stops at an entry only where a text cannot be made.
theorem relay_lenient (watching : stage.host.watching = true) (lenient : stage.monitor.failFast = false) :
    (relay stage entries).2 = none ∨ ∃ fault, (relay stage entries).2 = some (.text fault) := by
  induction entries generalizing stage with
  | nil => exact .inl rfl
  | cons entry rest ih =>
    have stopped := @Host.emit_stopped _ entry.event entry.location watching
    have steady := @Host.steady_emit stage.host entry.event entry.location
    have host := @Host.emit_watching _ entry.event entry.location watching
    rw [show stage.host.monitor.failFast = false from lenient] at stopped
    rw [relay]
    cases stop : (stage.host.emit entry.event entry.location).stopped with
    | none => exact ih (congrArg Host.watching host) (steady.failFast.trans lenient)
    | some stop' =>
      obtain ⟨fault,rfl⟩ := Host.verdict_lenient (stopped.symm.trans stop)
      exact .inr ⟨fault,rfl⟩

theorem replayTrace_lenient (going : Going started.monitor stage)
    (unlogged : isLog files stage path = false) (read : Trace.entries files path = (entries,none)) :
    (replayTrace room files path stage).2 = none ∨
      ∃ fault, (replayTrace room files path stage).2 = some (.text fault) := by
  have watching : (stage.begin path).host.watching = true := going.watching
  rw [replayTrace_relay unlogged read]
  rcases @relay_lenient entries _ watching going.lenient with passed | ⟨fault,halted⟩
  · generalize relay (stage.begin path) entries = ran at passed
    obtain ⟨last,halt⟩ := ran
    cases passed
    cases made : last.monitor.marking.digest with
    | ok digest => rw [settle_ok made]; exact .inl rfl
    | error fault => rw [settle_error made]; exact .inr ⟨fault,rfl⟩
  · generalize relay (stage.begin path) entries = ran at halted
    obtain ⟨last,halt⟩ := ran
    cases halted
    exact .inr ⟨fault,rfl⟩

-- Traces that can be read before a run, none of which is its log, are replayed to their ends if no
-- text stops them.
theorem fresh_told (ready : started.monitor = startWith net (some config) logger journal)
    (opened : Opened config files journal started.files) (lenient : config.failFast = false)
    (wellFormed : ∀ path ∈ traces, ∃ entries, Trace.readAll files path = .ok entries)
    (apart : ∀ path ∈ traces, ∀ log, config.logPath = some log → ¬files.Meet log path)
    (told : ∀ path ∈ traces, ∀ fault,
      (replayTrace room started.files path (.fresh started)).2 ≠ some (.text fault)) :
    ∀ path ∈ traces, isLog started.files (.fresh started) path = false ∧
      (replayTrace room started.files path (.fresh started)).2 = none := by
  intro path member
  have held : (Stage.fresh started).monitor.journal = journal := congrArg Monitor.journal ready
  obtain ⟨entries,read⟩ := wellFormed path member
  have read' := entries_opened opened (apart path member) (Trace.entries_of_readAll read)
  have unlogged := isLog_opened opened held (apart path member)
  rcases @replayTrace_lenient _ _ _ _ room _ (fresh_going ready lenient).2 unlogged read' with
    whole | ⟨fault,halted⟩
  · exact ⟨unlogged,whole⟩
  · exact absurd halted (told path member fault)

-- What a replay comes to: it is drawn and summed up, unless a trace could not be read on.
def finish (renderer : Drawing.Renderer) (options : Options) (files : Files) : Progress → Result
  | (stage,none) => conclude renderer options files stage false
  | (stage,some (.fault fault)) => broken files stage fault.message
  | (stage,some (.text fault)) => broken files stage fault.message
  | (stage,some (.violation _ report)) =>
    match stage.monitor.logger.write (Console.violation stage.level report) with
    | .ok told => conclude renderer options files (stage.say told) true
    | .error fault => broken files stage fault.message

theorem run_finishes (planned : Replay.plan files options = .ok plan)
    (loaded : Monitor.load plan.config ⟨plan.level,true⟩ room files = .ok started) :
    run renderer room files options = finish renderer options started.files
      (replayTraces room started.files (.fresh started) options.traces) := by
  obtain ⟨level,config⟩ := plan
  unfold run
  rw [planned]
  dsimp only at loaded ⊢
  rw [loaded]
  rfl

theorem run_concludes {last : Stage} (planned : Replay.plan files options = .ok plan)
    (loaded : Monitor.load plan.config ⟨plan.level,true⟩ room files = .ok started)
    (replayed : replayTraces room started.files (.fresh started) options.traces = (last,none)) :
    run renderer room files options = conclude renderer options started.files last false := by
  rw [run_finishes planned loaded,replayed]
  rfl

-- An execution that reaches its end leaves a marking that has a digest.
theorem digest_of_told (told : (replayTrace room files path stage).2 = none) :
    ∃ digest, (replayTrace room files path stage).1.monitor.marking.digest = .ok digest := by
  rw [replayTrace_settle] at told ⊢
  obtain ⟨whole,digest,made⟩ := settle_none told
  generalize replayFile room files path (stage.begin path) = ran at *
  obtain ⟨last,halt⟩ := ran
  cases whole
  have made' : last.monitor.marking.digest = .ok digest := made
  rw [settle_ok made']
  exact ⟨digest,made⟩

-- Of executions that reach their ends the last one leaves a marking that has a digest.
theorem Passed.digest {chosen : List Path} {next : Stage} (some : chosen ≠ [])
    (told : ∀ path ∈ chosen, (replayTrace room files path stage).2 = .none)
    (passed : Passed (chosen.map fun path => (replayTrace room files path stage).1) stage next) :
    ∃ digest, next.monitor.marking.digest = .ok digest := by
  obtain ⟨before,path,rfl⟩ := (List.eq_nil_or_concat chosen).resolve_left some
  have member : path ∈ before.concat path := List.concat_eq_append ▸ List.mem_append_right _ List.mem_cons_self
  obtain ⟨digest,made⟩ := digest_of_told (told path member)
  rw [passed.marking,List.concat_eq_append,List.map_append,List.foldl_append]
  exact ⟨digest,made⟩

-- Traces are executions of their own when replay goes on behind violations: each of them has the
-- violations and the final marking that it has alone, and their order makes no difference to the
-- counts. It makes none to the exit code if the renderer, should it be asked for an image, does not
-- look at what it draws.
theorem traces_are_independent (planned : Replay.plan files options = .ok plan)
    (read : Net.ofFile files plan.config.netPath = .ok net)
    (loaded : Monitor.load plan.config ⟨plan.level,true⟩ room files = .ok started)
    (continuing : options.keepGoing = true)
    (wellFormed : ∀ path ∈ options.traces, ∃ entries, Trace.readAll files path = .ok entries)
    (apart : ∀ path ∈ options.traces, ∀ log, plan.config.logPath = some log → ¬files.Meet log path)
    (told : ∀ path ∈ options.traces, ∀ fault,
      (replayTrace room started.files path (.fresh started)).2 ≠ some (.text fault)) :
    let alone (path : Path) : Stage := (replayTrace room started.files path (.fresh started)).1
    let after (traces : List Path) : Stage :=
      (replayTraces room started.files (.fresh started) traces).1
    let drawing (stage : Stage) : Drawn × Option DrawFault :=
      draw renderer options stage.monitor (stage.monitor.filesNow started.files)
    ∀ traces, traces.Perm options.traces →
      let result := run renderer room files { options with traces }
      result = conclude renderer { options with traces } started.files (after traces) false ∧
      (∀ before path later, traces = before ++ path :: later →
        (after (before ++ [path])).host.violations =
            (after before).host.violations ++ (alone path).host.violations ∧
          (after (before ++ [path])).monitor.marking = (alone path).monitor.marking) ∧
      (after traces).host.violations.length = (after options.traces).host.violations.length ∧
      (after traces).monitor.statistics = (after options.traces).monitor.statistics ∧
      result.exit = (if (drawing (after traces)).2 = none then
        if options.traces.all fun path => (alone path).host.violations.isEmpty then 0 else 1 else 2) ∧
      ((AsksImage options → Drawing.Indifferent renderer) →
        ((drawing (after traces)).2 = none ↔ (drawing (after options.traces)).2 = none)) := by
  intro alone after drawing traces perm result
  obtain ⟨journal,ready,opened⟩ := load_opened read loaded
  have lenient := plan_lenient planned continuing
  obtain ⟨fresh,going⟩ := fresh_going ready lenient
  have whole := fresh_told ready opened lenient wellFormed apart told
  have passes (chosen : List Path) (known : ∀ path ∈ chosen, path ∈ options.traces) :
      ∃ next, replayTraces room started.files (.fresh started) chosen = (next,none) ∧
        Going started.monitor next ∧ Passed (chosen.map alone) (.fresh started) next :=
    replayTraces_passes fresh going (fun path member => (whole path (known path member)).1)
      (fun path member => (whole path (known path member)).2)
  obtain ⟨last,replayed,going,passed⟩ := passes traces fun path => perm.mem_iff.mp
  obtain ⟨last',replayed',going',passed'⟩ := passes options.traces fun path => id
  have final : after traces = last := congrArg Prod.fst replayed
  have final' : after options.traces = last' := congrArg Prod.fst replayed'
  obtain ⟨violations,statistics⟩ := passed.perm passed' (perm.map alone)
  have concluded : result = conclude renderer { options with traces } started.files last false :=
    run_concludes (plan_perm planned perm) loaded replayed
  refine ⟨final ▸ concluded,?_,?_,?_,?_,fun indifferent => ?_⟩
  · intro before path later split
    have known (path' : Path) (member : path' ∈ before ++ [path]) : path' ∈ options.traces := by
      refine perm.mem_iff.mp ?_
      rw [split,List.append_cons]
      exact List.mem_append_left _ member
    obtain ⟨middle,reached,-,passed⟩ :=
      passes before fun path' member => known path' (List.mem_append_left _ member)
    obtain ⟨next,reached',-,passed'⟩ := passes (before ++ [path]) known
    have halfway : after before = middle := congrArg Prod.fst reached
    have there : after (before ++ [path]) = next := congrArg Prod.fst reached'
    rw [halfway,there]
    rw [List.map_append] at passed'
    exact passed.snoc passed'
  · rw [final,final',violations.length_eq]
  · rw [final,final',statistics]
  · have quiet : last.host.violations.isEmpty =
        options.traces.all fun path => (alone path).host.violations.isEmpty := by
      rw [passed.quiet rfl,List.all_map,perm.all_eq]
      rfl
    rw [concluded,conclude_exit,quiet,final]
    rfl
  · -- Without a trace there is one order only; otherwise the last trace leaves a digest.
    by_cases none : options.traces = []
    · rw [none] at perm
      rw [perm.eq_nil,none]
    · have some : traces ≠ [] := fun empty => none (by rw [empty] at perm; exact perm.nil_eq.symm)
      obtain ⟨_,made⟩ := passed.digest some fun path member => (whole path (perm.mem_iff.mp member)).2
      obtain ⟨_,made'⟩ := passed'.digest none fun path member => (whole path member).2
      rw [final,final']
      have nets : last.monitor.net = last'.monitor.net :=
        going.steady.net.trans going'.steady.net.symm
      exact draw_alike nets made made' indifferent (sameTree_filesNow.symm.trans sameTree_filesNow)

def lockText (held : String) : String :=
  "\x7b\"places\": [\"free\", \"" ++ held ++ "\"], \"transitions\": \x7b" ++
  "\"acquire\": \x7b\"pre\": [\x7b\"place\": \"free\", \"variable\": \"L\"\x7d], " ++
  "\"post\": [\x7b\"place\": \"" ++ held ++ "\", \"variable\": \"L\"\x7d]\x7d, " ++
  "\"release\": \x7b\"pre\": [\x7b\"place\": \"" ++ held ++ "\", \"variable\": \"L\"\x7d], " ++
  "\"post\": [\x7b\"place\": \"free\", \"variable\": \"L\"\x7d]\x7d\x7d\x7d"

def mutexText : String := lockText "held"

def fileNamed (name : String) : Path := ⟨"",[name]⟩

-- One trace takes a lock and keeps it, the other one gives that lock back.
def mutexFiles : Files := ⟨⟨[
  ("back.trace",.file (Text.Utf8.encode "LockRelease(tid=1, lock_id=7)\n")),
  ("net.json",.file (Text.Utf8.encode mutexText)),
  ("take.trace",.file (Text.Utf8.encode "LockAcquire(tid=1, lock_id=7)\n"))],by decide⟩,[]⟩

set_option maxRecDepth 2000 in
theorem ofFile_mutexFiles : Net.ofFile mutexFiles (fileNamed "net.json") =
    .ok (Mutex.net ["free","held"] .empty) := rfl

def mutexOptions : Options where
  netPath := .value (fileNamed "net.json")
  traces := [fileNamed "take.trace",fileNamed "back.trace"]
  logPath := some (.value (fileNamed "run.log"))
  keepGoing := true
  output := .normal
  debug := .value 0
  graph := none
  table := false
  stats := false

def mutexConfig : Config := ⟨fileNamed "net.json",some (fileNamed "run.log"),false,false⟩

theorem mutexLog_apart : ∀ path ∈ mutexOptions.traces,
    ¬mutexFiles.Meet (fileNamed "run.log") path := by decide +kernel

-- The lock that the first trace keeps is of no use to the second one.
theorem traces_are_independent_locks :
    let take := fileNamed "take.trace"
    let back := fileNamed "back.trace"
    ∃ started : Monitor.Started, Monitor.load mutexConfig ⟨.normal,true⟩ 4 mutexFiles = .ok started ∧
      (replayTraces 4 started.files (.fresh started) [take,back]).1.host.violations =
        (replayTraces 4 started.files (.fresh started) [take]).1.host.violations ++
          (replayTrace 4 started.files back (.fresh started)).1.host.violations ∧
      (replayTrace 4 started.files back (.fresh started)).1.host.violations.length = 1 ∧
      (run none 4 mutexFiles mutexOptions).exit = 1 ∧
      (run none 4 mutexFiles { mutexOptions with traces := [back,take] }).exit = 1 := by
  intro take back
  have planned : Replay.plan mutexFiles mutexOptions = .ok ⟨.normal,mutexConfig⟩ := rfl
  obtain ⟨started,loaded⟩ : ∃ started,
      Monitor.load mutexConfig ⟨.normal,true⟩ 4 mutexFiles = .ok started :=
    exists_of_isOk (by decide +kernel)
  have wellFormed : ∀ path ∈ [take,back], ∃ entries, Trace.readAll mutexFiles path = .ok entries :=
    List.forall_mem_cons.mpr ⟨exists_of_isOk (by decide +kernel),
      List.forall_mem_singleton.mpr (exists_of_isOk (by decide +kernel))⟩
  have apart : ∀ path ∈ [take,back], ∀ log, mutexConfig.logPath = some log →
      ¬mutexFiles.Meet log path := by
    rintro path member _ ⟨⟩
    exact mutexLog_apart path member
  -- What is reported of each trace alone, where it is replayed to its end.
  have alone : ((Monitor.load mutexConfig ⟨.normal,true⟩ 4 mutexFiles).toOption.map fun started =>
      [take,back].map fun path =>
        let ran := replayTrace 4 started.files path (.fresh started)
        (ran.2.isNone,ran.1.host.violations.length)) = some [(true,0),(true,1)] := by
    decide +kernel
  rw [loaded] at alone
  simp only [Except.toOption,Option.map_some,Option.some.injEq,List.map_cons,List.map_nil,
    List.cons.injEq,Prod.mk.injEq,and_true] at alone
  obtain ⟨⟨whole,quiet⟩,whole',violated⟩ := alone
  have told : ∀ path ∈ [take,back], ∀ fault,
      (replayTrace 4 started.files path (.fresh started)).2 ≠ some (.text fault) := by
    intro path member fault halted
    obtain rfl | rfl := List.mem_pair.mp member
    · rw [halted] at whole; cases whole
    · rw [halted] at whole'; cases whole'
  have independent := @traces_are_independent _ _ _ none _ _ _ planned ofFile_mutexFiles loaded rfl
    wellFormed apart told
  obtain ⟨-,split,-,-,exit,-⟩ := independent [take,back] (.refl _)
  obtain ⟨-,-,-,-,exit',-⟩ := independent [back,take] (.swap ..)
  have some : (mutexOptions.traces.all fun path =>
      (replayTrace 4 started.files path (.fresh started)).1.host.violations.isEmpty) = false := by
    refine List.all_eq_false.mpr ⟨back,List.mem_cons_of_mem _ List.mem_cons_self,?_⟩
    rw [List.isEmpty_iff]
    intro none
    rw [none] at violated
    cases violated
  have undrawn : ∀ monitor files, (draw none mutexOptions monitor files).2 = none := fun _ _ => rfl
  simp only [undrawn,some,if_true,Bool.false_eq_true,if_false] at exit exit'
  exact ⟨started,loaded,(split [take] back [] rfl).1,violated,exit,exit'⟩

-- A trace that is to be the log as well is emptied before it is read, and a picture that cannot
-- be saved ends a run that reports nothing.
theorem trace_emptied_and_picture_unsaved :
    let alone (name : String) : Option Nat :=
      ((Monitor.load mutexConfig ⟨.normal,true⟩ 4 mutexFiles).toOption.map fun started =>
        (replayTrace 4 started.files (fileNamed name) (.fresh started)).1.host.violations.length)
    Net.ofFile mutexFiles (fileNamed "net.json") = .ok (Mutex.net ["free","held"] .empty) ∧
    (Trace.readAll mutexFiles (fileNamed "back.trace")).isOk = true ∧
    alone "back.trace" = some 1 ∧
    (program none 4 mutexFiles
      ["-n","net.json","-t","back.trace","-l","back.trace","--continue"]).exit = 0 ∧
    (Trace.readAll mutexFiles (fileNamed "take.trace")).isOk = true ∧
    alone "take.trace" = some 0 ∧
    (program none 4 mutexFiles
      ["-n","net.json","-t","take.trace","--visualize","missing/net.dot","--continue"]).exit = 2 := by
  refine ⟨ofFile_mutexFiles,?_,?_,?_,?_,?_,?_⟩ <;> decide +kernel

end Replay

end ProtocolNet
