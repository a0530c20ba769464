/-
**The command line.**

The command takes at most one file and a few options.  Without a file it starts a console; with
one it runs the file, or lists its tokens or its program.  Arguments are read from left to right,
and the first thing that settles the matter counts: a usage error, or the wish to see the version
or the help.

Main definitions:

* `Scriptlet.Command.Options`, `Scriptlet.Command.Request` — what the arguments ask for;
* `Scriptlet.Command.parse` — the request of a list of arguments;
* `Scriptlet.Command.ReadFailure` — why a file could not be read;
* `Scriptlet.Command.Result`, `Scriptlet.Command.runSource` — what the command prints, what it
  reports, and its exit status.
-/

import Scriptlet.Console
import Scriptlet.Program.Dump
import Scriptlet.Program.Sexp

set_option relaxedAutoImplicit false
set_option autoImplicit false

namespace Scriptlet.Command

/-! ### Requests -/

/-- How a program is listed. -/
inductive Listing
  | sexp
  | json
deriving DecidableEq, Repr

/-- The listing of a given name. -/
def Listing.ofName? : String → Option Listing
  | "sexp" => some .sexp
  | "json" => some .json
  | _ => none

/-- What the arguments say, each option at most once. -/
structure Options where
  /-- The file. -/
  file : Option String
  /-- Whether to list the tokens. -/
  dumpTokens : Bool
  /-- Whether to list the program. -/
  dumpProgram : Bool
  /-- How to list the program, if the arguments say so. -/
  listing : Option Listing
  /-- How often more logging was asked for. -/
  verbosity : Nat
deriving DecidableEq, Repr

/-- No arguments at all. -/
def Options.none : Options := ⟨.none, false, false, .none, 0⟩

/-- What the arguments ask for. -/
inductive Request
  /-- To act on the options. -/
  | act (options : Options)
  /-- To show the version. -/
  | version
  /-- To show the help. -/
  | help
  /-- Nothing that the command knows. -/
  | misuse
deriving DecidableEq, Repr

/-- Takes an argument for the file, which must not be empty. -/
def Options.takeFile (o : Options) (arg : String) : Option Options :=
  if arg = "" then .none
  else match o.file with
    | .none => some { o with file := some arg }
    | some _ => .none

/-- Takes the name of a listing. -/
def Options.takeListing (o : Options) (name : String) : Option Options :=
  match o.listing, Listing.ofName? name with
  | .none, some listing => some { o with listing := some listing }
  | _, _ => .none

/-- What one letter of a group of short options does. -/
inductive Letter
  | more
  | version
  | help
  | unknown

/-- The short options. -/
def Letter.ofChar : Char → Letter
  | 'v' => .more
  | 'V' => .version
  | 'h' => .help
  | _ => .unknown

/-- Reads a group of short options; the first letter that is not a plain flag settles the matter. -/
def takeLetters (o : Options) : List Char → Except Request Options
  | [] => .ok o
  | c :: cs =>
      match Letter.ofChar c with
      | .more => takeLetters { o with verbosity := o.verbosity + 1 } cs
      | .version => .error .version
      | .help => .error .help
      | .unknown => .error .misuse

/-- The request at the end of the arguments: a listing needs a file. -/
def Options.finish (o : Options) : Request :=
  if (o.dumpTokens || o.dumpProgram) && o.file.isNone then .misuse else .act o

/-- Reads the arguments behind `--`, none of which is an option. -/
def parseFiles (o : Options) : List String → Request
  | [] => o.finish
  | arg :: args =>
      match o.takeFile arg with
      | some o => parseFiles o args
      | none => .misuse

/-- Whether an argument is an option and not a file or a value. -/
def isOption (arg : String) : Bool :=
  match arg.toList with
  | '-' :: _ :: _ => true
  | _ => false

/-- Reads arguments from left to right. -/
def parseFrom (o : Options) : List String → Request
  | [] => o.finish
  | "--" :: args => parseFiles o args
  | "--dump-tokens" :: args =>
      if o.dumpTokens then .misuse else parseFrom { o with dumpTokens := true } args
  | "--dump-ast" :: args =>
      if o.dumpProgram then .misuse else parseFrom { o with dumpProgram := true } args
  | "--verbose" :: args => parseFrom { o with verbosity := o.verbosity + 1 } args
  | "--version" :: _ => .version
  | "--help" :: _ => .help
  | ["--ast-format"] => .misuse
  | "--ast-format" :: name :: args =>
      match o.takeListing name with
      | some o => parseFrom o args
      | none => .misuse
  | arg :: args =>
      if arg.startsWith "--ast-format=" then
        match o.takeListing (String.ofList (arg.toList.drop 13)) with
        | some o => parseFrom o args
        | none => .misuse
      else if arg.startsWith "--" then .misuse
      else if isOption arg then
        match takeLetters o (arg.toList.drop 1) with
        | .ok o => parseFrom o args
        | .error request => request
      else
        match o.takeFile arg with
        | some o => parseFrom o args
        | none => .misuse

/-- **The request of a list of arguments.** -/
def parse (args : List String) : Request := parseFrom .none args

/-! ### Files -/

/-- Why a file could not be read. -/
inductive ReadFailure
  | notFound
  | isDirectory
  | notDirectory
  | notText
  /-- Another reason of the system, in its words. -/
  | other (reason : String)
deriving DecidableEq, Repr

/-- The words for a failure to read. -/
def ReadFailure.text : ReadFailure → String
  | .notFound => "No such file or directory (os error 2)"
  | .isDirectory => "Is a directory (os error 21)"
  | .notDirectory => "Not a directory (os error 20)"
  | .notText => "stream did not contain valid UTF-8"
  | .other reason => reason

/-- The text that the bytes of a file spell. -/
def textOfBytes (bytes : ByteArray) : Except ReadFailure String :=
  match String.fromUTF8? bytes with
  | some text => .ok text
  | none => .error .notText

/-! ### Results -/

/-- How the command exits. -/
inductive Status
  | success
  /-- The arguments are wrong. -/
  | misuse
  /-- The source does not compile. -/
  | badSource
  /-- The file cannot be read. -/
  | noInput
  /-- The run ended with an error. -/
  | failure
deriving DecidableEq, Repr

/-- The number of a status. -/
def Status.code : Status → Nat
  | .success => 0
  | .misuse => 64
  | .badSource => 65
  | .noInput => 66
  | .failure => 70

/-- What the command prints, what it reports, and how it exits. -/
structure Result where
  /-- How the command exits. -/
  status : Status
  /-- The text on the standard output. -/
  stdout : String
  /-- The reports, one for each error. -/
  reports : List String
deriving DecidableEq

/-- What the version option prints. -/
def versionText : String := "tl 0.1.0\n"

/-- What the help option prints. -/
def helpText : String :=
  "Interpreter for the tiny scripting language\n\nUsage: tl [OPTIONS] [FILE]\n\nArguments:\n"
    ++ "  [FILE]  Source file to run (omit for REPL)\n\nOptions:\n"
    ++ "      --dump-tokens              Dump tokens and exit\n"
    ++ "      --dump-ast                 Dump AST and exit\n"
    ++ "      --ast-format <AST_FORMAT>  AST output format [default: sexp]"
    ++ " [possible values: sexp, json]\n"
    ++ "  -v, --verbose...               Log more\n"
    ++ "  -h, --help                     Print help\n"
    ++ "  -V, --version                  Print version\n"

/-- The result for a source that does not compile. -/
def rejected (errors : List CompileError) : Result :=
  ⟨.badSource, "", errors.map CompileError.text⟩

/-- The result for a file that cannot be read. -/
def unreadable (file : String) (failure : ReadFailure) : Result :=
  ⟨.noInput, "", ["error: read source file '" ++ file ++ "': " ++ failure.text]⟩

/-- Lists the tokens of a source. -/
def listTokens (source : String) : Result :=
  match scan source with
  | .ok tokens => ⟨.success, String.join (tokens.map fun t => t.text ++ "\n"), []⟩
  | .error errors => rejected (errors.map .scan)

/-- Lists the program of a source, its names not resolved. -/
def listProgram (listing : Listing) (source : String) : Result :=
  match (Program.ofSource (W := .word) source .full).1 with
  | .ok program =>
      match listing with
      | .sexp => ⟨.success, program.sexp, []⟩
      | .json => ⟨.success, program.dump ++ "\n", []⟩
  | .error errors => rejected errors

/-- Runs a source in a session of its own. -/
def execute (fuel : Nat) (clock : Nat → Float) (source : String) : Option Result :=
  match (Session.start (.lines #[]) clock).run fuel source with
  | none => none
  | some (ending, s) =>
      let status := match ending with
        | .success => Status.success
        | .rejected _ => Status.badSource
        | .failed _ => Status.failure
      some ⟨status, String.join (s.printed.map fun line => line ++ "\n"), ending.reports⟩

/-- **What the options ask to be done with the source of the file**: to list the tokens, or else to
list the program, or else to run it. -/
def runSource (fuel : Nat) (clock : Nat → Float) (o : Options) (source : String) : Option Result :=
  if o.dumpTokens then some (listTokens source)
  else if o.dumpProgram then some (listProgram (o.listing.getD .sexp) source)
  else execute fuel clock source

end Scriptlet.Command
