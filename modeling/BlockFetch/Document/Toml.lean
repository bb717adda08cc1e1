import BlockFetch.Document.Toml.Scalar
import BlockFetch.Document.Toml.Tree

/-!
# Configuration files

A configuration file is a list of lines: headers of tables, assignments, comments and blank lines.
The format is TOML 1.0. Lists may go over several lines and may end with a comma; tables that are
written as one value may not. Values nest at most seventy-nine deep, and a path has at most as many
keys.
-/
namespace BlockFetch.Document

namespace Toml

open Reading (skip?)

/-- How deep values may nest, and how many keys a path may have. -/
def maxLevels : Nat := 79

/-! ## Keys -/

def isBare (c : Char) : Bool :=
  c.isAlphanum || c = '_' || c = '-'

def simpleKey? (input : List Char) : Option (String × List Char) :=
  match input with
  | '"' :: rest =>
    (basicText? (rest.length + 1) rest).map fun (chars, rest) => (String.ofList chars, rest)
  | '\'' :: rest => (literalText? rest).map fun (chars, rest) => (String.ofList chars, rest)
  | _ =>
    match input.span isBare with
    | ([], _) => none
    | (key, rest) => some (String.ofList key, rest)

/-- Reads keys with dots between them, and the blanks around each of them. -/
def keys? : (fuel : Nat) → List Char → Option (Path × List Char)
  | 0, _ => none
  | fuel + 1, input => do
    let (key, rest) ← simpleKey? (skipBlanks input)
    match skipBlanks rest with
    | '.' :: rest =>
      let (path, rest) ← keys? fuel rest
      return (key :: path, rest)
    | rest => return ([key], rest)

def path? (input : List Char) : Option (Path × List Char) := do
  let (path, rest) ← keys? input.length input
  if path.length ≤ maxLevels then return (path, rest) else none

/-! ## Blank space -/

/-- Takes a comment off a text, up to the end of its line. -/
def skipComment (input : List Char) : List Char :=
  match input with
  | '#' :: rest => rest.dropWhile isPlain
  | _ => input

/-- Takes blanks, line ends and comments off a text. -/
def skipSpace : (fuel : Nat) → List Char → List Char
  | 0, input => input
  | fuel + 1, input =>
    let rest := skipComment (skipBlanks input)
    match lineEnd? rest with
    | some rest => skipSpace fuel rest
    | none => rest

/-! ## Values -/

mutual

/-- Reads a value that starts right here and may be nested `levels` deep. Every step down or along
takes one unit of fuel. -/
def value? : (fuel levels : Nat) → List Char → Option (Document × List Char)
  | 0, _, _ => none
  | fuel + 1, levels, input =>
    match input, levels with
    | '[' :: _, 0 | '{' :: _, 0 => none
    | '[' :: rest, levels + 1 => do
      let (items, rest) ← items? fuel levels (skipSpace rest.length rest)
      return (list items, rest)
    | '{' :: rest, levels + 1 => do
      match skipBlanks rest with
      | '}' :: rest => return (record [], rest)
      | rest =>
        let (assignments, rest) ← assignments? fuel levels rest
        return (← inlineTable? assignments, rest)
    | '"' :: _, _ | '\'' :: _, _ => (text? input).map fun (value, rest) => (text value, rest)
    | _, _ => scalar? input

def items? : (fuel levels : Nat) → List Char → Option (List Document × List Char)
  | 0, _, _ => none
  | fuel + 1, levels, input =>
    match input with
    | ']' :: rest => some ([], rest)
    | _ => do
      let (item, rest) ← value? fuel levels input
      match skipSpace rest.length rest with
      | ']' :: rest => return ([item], rest)
      | ',' :: rest =>
        let (items, rest) ← items? fuel levels (skipSpace rest.length rest)
        return (item :: items, rest)
      | _ => none

/-- Reads the assignments of a table that is written as one value, up to its closing brace. -/
def assignments? : (fuel levels : Nat) → List Char → Option (List (Path × Document) × List Char)
  | 0, _, _ => none
  | fuel + 1, levels, input => do
    let (path, rest) ← path? input
    let (value, rest) ← value? fuel levels (skipBlanks (← skip? '=' rest))
    match skipBlanks rest with
    | '}' :: rest => return ([(path, value)], rest)
    | ',' :: rest =>
      let (assignments, rest) ← assignments? fuel levels rest
      return ((path, value) :: assignments, rest)
    | _ => none

end

/-! ## Lines -/

/-- Takes the rest of a line off a text, which may hold blanks and a comment only. -/
def skipLine? (input : List Char) : Option (List Char) :=
  let rest := skipComment (skipBlanks input)
  if rest.isEmpty then some [] else lineEnd? rest

/-- Reads a header or an assignment, and what is left of its line. -/
def statement? (input : List Char) : Option (Statement × List Char) :=
  match input with
  | '[' :: '[' :: rest => do
    let (path, rest) ← path? rest
    return (.elementHeader path, ← skipLine? (← skip? ']' (← skip? ']' rest)))
  | '[' :: rest => do
    let (path, rest) ← path? rest
    return (.header path, ← skipLine? (← skip? ']' rest))
  | _ => do
    let (path, rest) ← path? input
    let rest := skipBlanks (← skip? '=' rest)
    let (value, rest) ← value? (rest.length + 1) maxLevels rest
    return (.assignment path value, ← skipLine? rest)

def statements? : (fuel : Nat) → List Char → Option (List Statement)
  | 0, _ => none
  | fuel + 1, input =>
    match skipSpace input.length input with
    | [] => some []
    | rest => do
      let (statement, rest) ← statement? rest
      let statements ← statements? fuel rest
      return statement :: statements

end Toml

/-- Reads a configuration file. A byte order mark at its start means nothing. -/
def ofToml? (input : String) : Option Document :=
  let chars := match input.toList with
    | c :: rest => if c.toNat = 0xFEFF then rest else c :: rest
    | [] => []
  (Toml.statements? (chars.length + 1) chars).bind Toml.ofStatements?

end BlockFetch.Document
