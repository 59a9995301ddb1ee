/-!
# Arguments of a command

Arguments are options and words. An option is long, with two dashes and perhaps a value after an
equals sign, or short, with one dash and perhaps a value right after its letter; otherwise its value
is the next argument. After two dashes alone all arguments are words.
-/

namespace SolidityAudit.Command

structure OptionSpec where
  long : String
  short : Option Char := none
  takesValue : Bool := true

inductive Piece where
  | word
  | flag (name : String)
  | given (name value : String)
  /-- An option whose value is the next argument. -/
  | awaits (name : String)
  | unknown

/-- An option that may have its value attached. -/
def OptionSpec.piece (o : OptionSpec) (attached : Option String) : Piece :=
  match o.takesValue, attached with
  | true, some value => .given o.long value
  | true, none => .awaits o.long
  | false, none => .flag o.long
  | false, some _ => .unknown

def optionPiece (options : List OptionSpec) (arg : List Char) : Piece :=
  let name := arg.takeWhile (· != '=')
  let attached := match arg.dropWhile (· != '=') with
    | _ :: value => some (String.ofList value)
    | [] => none
  match options.find? fun o => o.long.toList == name with
  | some o => o.piece attached
  | none =>
    match arg with
    | '-' :: '-' :: _ => .unknown
    | _ :: letter :: rest =>
      match options.find? fun o => o.short == some letter with
      | some o => o.piece (if rest.isEmpty then none else some (String.ofList rest))
      | none => .unknown
    | _ => .unknown

def pieceOf (options : List OptionSpec) (arg : String) : Piece :=
  match arg.toList with
  | '-' :: c :: rest => optionPiece options ('-' :: c :: rest)
  | _ => .word

structure Reading where
  /-- Options with their values, in the order of the arguments. -/
  values : List (String × String) := []
  words : List String := []
  /-- The option whose value is the next argument. -/
  awaited : Option String := none
  /-- Whether all further arguments are words. -/
  onlyWords : Bool := false

namespace Reading

/-- Reads one more argument. If words end the options, the first word does. -/
def step (options : List OptionSpec) (wordEnds : Bool) (r : Reading) (arg : String) :
    Option Reading :=
  if r.onlyWords then some { r with words := r.words ++ [arg] }
  else match r.awaited with
    | some name => some { r with values := r.values ++ [(name, arg)], awaited := none }
    | none =>
      if arg == "--" then some { r with onlyWords := true }
      else match pieceOf options arg with
        | .word => some { r with words := r.words ++ [arg], onlyWords := wordEnds }
        | .flag name => some { r with values := r.values ++ [(name, "")] }
        | .given name value => some { r with values := r.values ++ [(name, value)] }
        | .awaits name => some { r with awaited := some name }
        | .unknown => none

/-- Reads arguments. An unknown option and one that lacks its value are refused. -/
def ofArguments? (options : List OptionSpec) (wordEnds : Bool) (args : List String) :
    Option Reading :=
  match args.foldlM (step options wordEnds) {} with
  | some r => if r.awaited.isNone then some r else none
  | none => none

def has (r : Reading) (name : String) : Bool := r.values.any (·.1 == name)

def valuesOf (r : Reading) (name : String) : List String :=
  (r.values.filter (·.1 == name)).map (·.2)

/-- The value of an option; of several the last one counts. -/
def lastValue? (r : Reading) (name : String) : Option String := (r.valuesOf name).getLast?

end Reading
end SolidityAudit.Command
