import Progressions.Response

/-!
# Requests

A request names an entry point and carries its arguments: a specification, with
options in front of it or given by name.  No option is known yet, so options that
are a mapping are ignored with a warning that names them in order.
-/

set_option autoImplicit false

namespace Progressions

inductive EntryPoint where
  | describe
  | iterate
deriving DecidableEq

def EntryPoint.name : EntryPoint → String
  | .describe => "numseq_parse"
  | .iterate => "numseq_iter"

/-- An argument: a plain value, or options that were built before. -/
inductive Argument where
  | plain (value : Value)
  | prepared

namespace Argument

def typeName : Argument → String
  | .plain value => value.typeName
  | .prepared => "ParseOptions"

def isNull : Argument → Bool
  | .plain .null => true
  | _ => false

/-- The argument can be options: a mapping, or options that were built before. -/
def isOptions : Argument → Bool
  | .plain (.object _) => true
  | .prepared => true
  | _ => false

/-- What is reported when the argument is taken as options. -/
def optionEvents : Argument → Except RequestError (List Event)
  | .prepared => .ok []
  | .plain .null => .ok []
  | .plain (.object entries) =>
    let names := (entries.map (·.1)).mergeSort fun left right => !decide (right < left)
    .ok (if names.isEmpty then [] else [.optionsIgnored names])
  | .plain value => .error (.optionsType value.typeName)

def text : Argument → Except RequestError String
  | .plain (.text source) => .ok source
  | other => .error (.specificationType other.typeName)

end Argument

/-- How options are shown: there is nothing in them. -/
def optionsDisplay : String := "ParseOptions()"

structure Request where
  entryPoint : EntryPoint
  arguments : List Argument
  /-- The options given by name; null if there are none. -/
  options : Argument

namespace Request

def split (request : Request) : Except RequestError (Argument × Argument) :=
  let name := request.entryPoint.name
  match request.arguments with
  | [specification] => .ok (specification, request.options)
  | [options, specification] =>
    if !request.options.isNull then .error (.optionsTwice name)
    else if options.isOptions then .ok (specification, options)
    else .error (.leadingOptions name options.typeName)
  | arguments => .error (.argumentCount name arguments.length)

def source (request : Request) : Except RequestError String × List Event :=
  match request.split with
  | .error cause => (.error cause, [])
  | .ok (specification, options) =>
    match options.optionEvents with
    | .error cause => (.error cause, [])
    | .ok warnings => (specification.text, warnings)

def respond (request : Request) : Except Fault Response × List Event :=
  match request.source with
  | (.error cause, warnings) => (.error (.request cause), warnings)
  | (.ok source, warnings) => (Response.ofText source, warnings ++ Response.events source)

def iterator (request : Request) : Except Fault Iterator × List Event :=
  match request.source with
  | (.error cause, warnings) => (.error (.request cause), warnings)
  | (.ok source, warnings) => (Iterator.ofText source, warnings ++ Sequence.readingEvents source)

end Request

end Progressions
