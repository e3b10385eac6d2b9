import TemplateMessages.Expression.Nesting
import TemplateMessages.Text.Blank
import TemplateMessages.Text.Search
import TemplateMessages.Text.Span

set_option autoImplicit false

/-!
# Arguments of a translation call

The arguments of a call are a key, then optional params, then an optional locale. The key and the
locale are string literals, and the params an expression. Only quotes and brackets are looked at.
-/

namespace TemplateMessages.Call

open TemplateMessages.Expression (Quote)
open TemplateMessages.Text

inductive CallError where
  | missingKey
  | keyNotString
  | keyNotLiteral
  | unexpectedAfterKey (text : String)
  | dynamicKey (key : String)
  | taggedTemplate (text : String)
  | paramsNotObject
  | paramsNotBalanced
  | unexpectedAfterParams (text : String)
  deriving DecidableEq, Repr, Inhabited

def CallError.message : CallError → String
  | missingKey => "invalid key: key is required"
  | keyNotString => "invalid key: key should be a string"
  | keyNotLiteral => "invalid key: key should be a string literal"
  | unexpectedAfterKey text => "invalid key: unexpected `" ++ text ++ "` after key"
  | dynamicKey key => "dynamic key `" ++ key ++ "` cannot be resolved at build time"
  | taggedTemplate text => "tagged template literals are not supported: " ++ text
  | paramsNotObject => "invalid params: params should be an object literal"
  | paramsNotBalanced => "invalid params: params object is not balanced"
  | unexpectedAfterParams text => "invalid params: unexpected `" ++ text ++ "` after params"

structure Arguments where
  key : String
  params : Option String
  locale : Option String
  deriving DecidableEq, Repr, Inhabited

def substitution : List Char := ['$', '{']

def afterKey (text : List Char) : Except CallError (List Char) :=
  match trimStart text with
  | [] => .ok []
  | ',' :: rest => .ok (trim rest)
  | rest => .error (.unexpectedAfterKey (String.ofList rest))

/-- The key that the arguments start with, and the arguments behind it. -/
def splitKey (arguments : List Char) : Except CallError (String × List Char) :=
  let trimmed := trim arguments
  match trimmed with
  | [] => .error .missingKey
  | c :: cs =>
    if (trimmed.filter fun c => (Quote.ofChar? c).isSome).length < 2 then .error .keyNotString
    else if c = ',' then .error .missingKey
    else
      match Quote.ofChar? c with
      | none => .error .keyNotLiteral
      | some quote =>
        match cs.takeWhile (· ≠ c), cs.dropWhile (· ≠ c) with
        | _, [] => .error .missingKey
        | key, _ :: rest =>
          if quote = .back ∧ contains substitution key then .error (.dynamicKey (String.ofList key))
          else (afterKey rest).map fun rest => (String.ofList key, rest)

def splitParams (expression : List Char) : Except CallError (String × String) :=
  let trimmed := trim expression
  match trimmed with
  | '{' :: body =>
    match Expression.findClosing body .curly with
    | some length =>
      .ok (String.ofList (takeBytes (length + 1) trimmed),
        String.ofList (trim (dropBytes (length + 1) trimmed)))
    | none => .error .paramsNotBalanced
  | _ => .error .paramsNotObject

/-- The params and the locale behind a key. The locale is a string literal at the end, with nothing
or a comma in front of it; where a string at the end is no such literal, all is params. -/
def splitLocale (arguments : List Char) : Except CallError (Option String × Option String) :=
  let trimmed := trim arguments
  let paramsOnly : Except CallError (Option String × Option String) :=
    .ok (some (String.ofList trimmed), none)
  match trimmed.reverse with
  | [] => .ok (none, none)
  | last :: body =>
    match Quote.ofChar? last with
    | none => paramsOnly
    | some quote =>
      let locale := (body.takeWhile (· ≠ last)).reverse
      match body.dropWhile (· ≠ last) with
      | [] => paramsOnly
      | _ :: front =>
        if quote = .back ∧ contains substitution locale then paramsOnly
        else
          match front.dropWhile isBlank with
          | [] => .ok (none, some (String.ofList locale))
          | ',' :: before =>
            let params := trim before.reverse
            .ok (if params.isEmpty then none else some (String.ofList params),
              some (String.ofList locale))
          | _ => .error (.taggedTemplate (String.ofList trimmed))

def Arguments.parse (arguments : List Char) : Except CallError Arguments := do
  let (key, rest) ← splitKey arguments
  let (params, locale) ← splitLocale rest
  return ⟨key, params, locale⟩

end TemplateMessages.Call
