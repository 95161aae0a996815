import Polycube.Lib.ByteStrings

/-!
# The arguments of the command line

`ParseCLIArgs` walks through the arguments of `polycubectl` once and sorts them into path
arguments, body arguments, the command and the flags.  `processArg` is one turn of its loop, by
`argIsCommand`, `argIsFlag`, `argIsBodyArg` and `argIsHelp` in the order the code asks them.
Indexing a string or a list outside its length is a panic, told apart from a returned error.
-/

namespace Polycube.Polycubectl

open Lib

inductive Failure
  | panic
  | error (text : Str)
  deriving DecidableEq

inductive ShowType
  | unspec
  | normal
  | brief
  | verbose
  | json
  | yaml
  deriving DecidableEq

def addCommand : Str := ascii "add"
def showCommand : Str := ascii "show"
def delCommand : Str := ascii "del"
def setCommand : Str := ascii "set"

def showNormal : Str := ascii "-normal"
def showBrief : Str := ascii "-brief"
def showVerbose : Str := ascii "-verbose"
def showJson : Str := ascii "-json"
def showYaml : Str := ascii "-yaml"

/-- What the parser hands over.  `bodyArgs` lists the entries of a map, in the order they were
put in, and the keys of `hideList` are the set of its map. -/
structure CLIArgs where
  command : Str
  pathArgs : List Str
  bodyArgs : List (Str × Str)
  showType : ShowType
  isHelp : Bool
  hideList : Option (Finset Str)
  deriving DecidableEq

def argIsCommand (arg : Str) : Bool :=
  arg = addCommand || arg = setCommand || arg = showCommand || arg = delCommand

/-- The byte `=`. -/
def equals : UInt8 := '='.toUInt8

/-- The byte `-`. -/
def dash : UInt8 := '-'.toUInt8

def argIsBodyArg (arg : Str) : Bool := arg.contains equals

/-- `arg[0] == '-'`: the empty string has no first byte. -/
def argIsFlag (arg : Str) : Except Failure Bool :=
  match arg with
  | [] => .error .panic
  | c :: _ => .ok (c = dash)

def argIsHelp (arg : Str) : Bool := arg = ascii "?"

def argIsHide (arg : Str) : Bool := (arg.splitOn equals).head? = some (ascii "-hide")

def hideUsage : Failure := .error (ascii "-hide usage: -hide=key0,key1,key")

def parseHideArg (arg : Str) : Except Failure (Finset Str) :=
  let list := arg.splitOn equals
  -- avoid -hide alone
  if list.length ≠ 2 then
    .error hideUsage
  else if list[1]? = some [] then
    .error hideUsage
  else
    .ok ((list.getD 1 []).splitOn ','.toUInt8).toFinset

def showTypeStrToShowType (arg : Str) : ShowType :=
  if arg = showNormal then .normal
  else if arg = showBrief then .brief
  else if arg = showVerbose then .verbose
  else if arg = showJson then .json
  else if arg = showYaml then .yaml
  else .unspec

@[ext]
structure Parsing where
  command : Str := []
  pathArgs : List Str := []
  bodyArgs : List (Str × Str) := []
  isHelp : Bool
  showTypeStr : Str := []
  hideList : Option (Finset Str) := none
  processingBody : Bool := false

/-- `args[i-1]`, which the messages about a misplaced argument name. -/
def previous (args : List Str) (i : Nat) : Except Failure Str :=
  match i with
  | 0 => .error .panic
  | i + 1 => (args[i]?).elim (.error .panic) .ok

/-- The error of an argument `arg` at `i` that may not follow a body argument. -/
def misplaced (args : List Str) (i : Nat) (arg : Str) : Except Failure Parsing := do
  .error (.error (arg ++ ascii " is not valid after " ++ (← previous args i)))

def isShowType (arg : Str) : Bool :=
  arg = showNormal || arg = showBrief || arg = showVerbose || arg = showJson || arg = showYaml

def processFlag (args : List Str) (arg : Str) (s : Parsing) : Except Failure Parsing :=
  if isShowType arg then
    if s.showTypeStr ≠ [] then
      .error (.error (arg ++ ascii " and " ++ s.showTypeStr ++ ascii " cannot be use together"))
    else if s.command ≠ showCommand then
      .error (.error (arg ++ ascii " can only be used with " ++ showCommand ++ ascii " command"))
    else if s.hideList.isSome ∧ (arg = showJson ∨ arg = showYaml) then
      .error (.error (ascii "-hide is not compatible with " ++ arg))
    else
      .ok { s with showTypeStr := arg }
  else if arg = ascii "-h" ∨ arg = ascii "--help" then
    if args.length ≠ 1 then
      .error (.error (arg ++ ascii " have to be the unique argument"))
    else
      .ok { s with isHelp := true }
  else if argIsHide arg then
    if s.command ≠ showCommand then
      .error (.error (ascii "-hide can only be used with " ++ showCommand ++ ascii " command"))
    else if s.showTypeStr = showJson ∨ s.showTypeStr = showYaml then
      .error (.error (ascii "-hide is not compatible with " ++ s.showTypeStr))
    else
      (parseHideArg arg).map fun hideList => { s with hideList := some hideList }
  else
    .error (.error (arg ++ ascii " is not a valid flag"))

def processBodyArg (arg : Str) (s : Parsing) : Except Failure Parsing :=
  match arg.splitOn equals with
  | [key, value] =>
    if (s.bodyArgs.lookup key).isSome then
      .error (.error (ascii "Duplicated values for " ++ key))
    else
      .ok { s with processingBody := true, bodyArgs := s.bodyArgs ++ [(key, value)] }
  | _ => .error (.error (arg ++ ascii " is not a valid format"))

/-- One turn of the loop, for the argument `arg` at `i`. -/
def processArg (args : List Str) (i : Nat) (arg : Str) (s : Parsing) : Except Failure Parsing := do
  if argIsCommand arg then
    if s.command ≠ [] then
      .error (.error (ascii "Multiple commands found: " ++ arg ++ ascii " and " ++ s.command))
    else if s.processingBody then
      misplaced args i arg
    else
      .ok { s with command := arg }
  else if ← argIsFlag arg then
    processFlag args arg s
  else if argIsBodyArg arg then
    processBodyArg arg s
  else if argIsHelp arg then
    -- the "?" argument should be the last one
    if args.length - 1 ≠ i then
      .error (.error (ascii "'?' must be the last argument"))
    else
      .ok { s with isHelp := true }
  else if s.processingBody then
    misplaced args i arg
  else
    .ok { s with pathArgs := s.pathArgs ++ [arg] }

/-- The loop from the argument at `i` on. -/
def processArgs (args : List Str) : List Str → Nat → Parsing → Except Failure Parsing
  | [], _, s => .ok s
  | arg :: rest, i, s => do processArgs args rest (i + 1) (← processArg args i arg s)

def parseCLIArgs (args : List Str) : Except Failure CLIArgs := do
  let s ← processArgs args args 0 { isHelp := args.length = 0 }
  return {
    command := s.command
    pathArgs := s.pathArgs
    bodyArgs := s.bodyArgs
    showType := showTypeStrToShowType s.showTypeStr
    isHelp := s.isHelp
    hideList := s.hideList }

end Polycube.Polycubectl
