import ProtocolNet.Text.Digit
import ProtocolNet.Text.Quoted

namespace ProtocolNet.CommandLine

inductive Key where
  | help | net | trace | log | keepGoing | output | debug | drawGraph | drawTable | stats | version
deriving DecidableEq, Repr

inductive Arity where
  | none | one | optional | many
deriving DecidableEq, Repr

structure Flag where
  key : Key
  names : List String
  arity : Arity
deriving DecidableEq, Repr

def flags : List Flag := [
  ⟨.help,["-h","--help"],.none⟩,
  ⟨.net,["-n","--net"],.one⟩,
  ⟨.trace,["-t","--trace"],.many⟩,
  ⟨.log,["-l","--log"],.one⟩,
  ⟨.keepGoing,["--continue"],.none⟩,
  ⟨.output,["-o","--output"],.one⟩,
  ⟨.debug,["-d","--debug"],.one⟩,
  ⟨.drawGraph,["--visualize"],.optional⟩,
  ⟨.drawTable,["--visualize-ascii"],.none⟩,
  ⟨.stats,["--stats"],.none⟩,
  ⟨.version,["--version"],.none⟩]

def Flag.title (flag : Flag) : String := "/".intercalate flag.names

inductive Fault where
  | ambiguous (written : String) (names : List String)
  | tooFew (flag : Flag)
  | ignoredArgument (flag : Flag) (argument : String)
  | noInteger (flag : Flag) (argument : String)
  | noChoice (flag : Flag) (shown : String) (choices : List String)
  | required (flags : List Flag)
  | unrecognized (arguments : List String)
deriving DecidableEq, Repr

def Fault.message : Fault → String
  | .ambiguous written names =>
    "ambiguous option: " ++ written ++ " could match " ++ ", ".intercalate names
  | .tooFew flag =>
    let expected := if flag.arity = .many then "at least one argument" else "one argument"
    "argument " ++ flag.title ++ ": expected " ++ expected
  | .ignoredArgument flag argument =>
    "argument " ++ flag.title ++ ": ignored explicit argument " ++ Text.quoted argument
  | .noInteger flag argument =>
    "argument " ++ flag.title ++ ": invalid int value: " ++ Text.quoted argument
  | .noChoice flag shown choices =>
    "argument " ++ flag.title ++ ": invalid choice: " ++ shown ++ " (choose from " ++
      ", ".intercalate choices ++ ")"
  | .required flags =>
    "the following arguments are required: " ++ ", ".intercalate (flags.map Flag.title)
  | .unrecognized arguments => "unrecognized arguments: " ++ " ".intercalate arguments

structure Use where
  flag : Flag
  name : String
  attached : Option (List Char)
deriving DecidableEq, Repr

inductive Argument where
  | value
  | separator
  | unknownFlag
  | flag (use : Use)
deriving DecidableEq, Repr

def flagNames : List (String × Flag) :=
  flags.flatMap fun flag => flag.names.map fun name => (name,flag)

def named? (name : List Char) : Option Flag := flagNames.lookup (.ofList name)

def splitSign (s : List Char) : List Char × Option (List Char) :=
  match s.dropWhile (· ≠ '=') with
  | [] => (s,none)
  | _ :: rest => (s.takeWhile (· ≠ '='),some rest)

def candidates (s : List Char) : List Use :=
  match s with
  | '-' :: '-' :: _ =>
    let (start,attached) := splitSign s
    flagNames.filterMap fun (name,flag) =>
      if start.isPrefixOf name.toList then some ⟨flag,name,attached⟩ else none
  | '-' :: letter :: rest =>
    flagNames.filterMap fun (name,flag) =>
      if name.toList = ['-',letter] then some ⟨flag,name,some rest⟩
      else if s.isPrefixOf name.toList then some ⟨flag,name,none⟩
      else none
  | _ => []

def isNumberText (s : List Char) : Bool :=
  let s := if s.getLast? = some '\n' then s.dropLast else s
  match s.dropWhile Text.isDigit with
  | [] => !s.isEmpty
  | c :: rest => c == '.' && !rest.isEmpty && rest.all Text.isDigit

def classify (written : String) : Except Fault Argument :=
  let s := written.toList
  match s with
  | '-' :: body =>
    match named? s with
    | some flag => .ok (.flag ⟨flag,written,none⟩)
    | none =>
      if body.isEmpty then .ok .value
      else
        let (start,attached) := splitSign s
        match attached, named? start with
        | some chars, some flag => .ok (.flag ⟨flag,.ofList start,some chars⟩)
        | _, _ =>
          match candidates s with
          | [use] => .ok (.flag use)
          | [] =>
            if isNumberText body || ' ' ∈ s then .ok .value else .ok .unknownFlag
          | several => .error (.ambiguous written (several.map (·.name)))
  | _ => .ok .value

def classifyAll : List String → Except Fault (List (String × Argument))
  | [] => .ok []
  | "--" :: rest => .ok (("--",.separator) :: rest.map (·,.value))
  | written :: rest => do
    let argument ← classify written
    return (written,argument) :: (← classifyAll rest)

def leadingValues (arguments : List (String × Argument)) : List String :=
  (arguments.takeWhile (·.2 = .value)).map (·.1)

def takeValues (flag : Flag) (following : List String) : Except Fault (List String) :=
  match flag.arity, following with
  | .none, _ => .ok []
  | .optional, following => .ok (following.take 1)
  | .one, first :: _ => .ok [first]
  | .many, first :: rest => .ok (first :: rest)
  | .one, [] | .many, [] => .error (.tooFew flag)

structure Bundle where
  uses : List (Flag × List String)
  taken : Nat

def single (flag : Flag) (following : List String) : Except Fault Bundle :=
  (takeValues flag following).map fun values => ⟨[(flag,values)],values.length⟩

def bundleAttached (flag : Flag) (long : Bool) (following : List String) :
    List Char → Except Fault Bundle
  | [] =>
    if flag.arity = .none then .error (.ignoredArgument flag "") else .ok ⟨[(flag,[""])],0⟩
  | letter :: rest =>
    let written := String.ofList (letter :: rest)
    if flag.arity ≠ .none then .ok ⟨[(flag,[written])],0⟩
    else
      match long, named? ['-',letter] with
      | false, some next =>
        let bundle :=
          match rest with
          | [] => single next following
          | c :: more => bundleAttached next false following (c :: more)
        bundle.map fun bundle => { bundle with uses := (flag,[]) :: bundle.uses }
      | _, _ => .error (.ignoredArgument flag written)

def bundle (use : Use) (following : List String) : Except Fault Bundle :=
  match use.attached with
  | none => single use.flag following
  | some chars => bundleAttached use.flag (use.name.startsWith "--") following chars

end ProtocolNet.CommandLine
