import Scaffold.Toml.Lexeme
import Scaffold.Toml.Outline

/-!
# Reading TOML

A document is a sequence of lines: members, and the headers of tables and of elements of
arrays of tables. Values may be arrays and tables between braces, nested to a bounded
depth.
-/

namespace Scaffold.Toml.Reader

open Lexeme

/-- The number of levels that may be nested. -/
def maxDepth : Nat := 80

mutual
/-- A value. -/
def value : Nat → (depth : Nat) → List Char → Option (Item × List Char)
  | 0, _, _ => none
  | fuel + 1, depth, s =>
    match s with
    | '"' :: _ | '\'' :: _ => do
      let (text, rest) ← string? s
      return (.value (.string (String.ofList text)), rest)
    | '[' :: rest => do
      if depth == 0 then none
      let (items, rest) ← items fuel (depth - 1) rest
      return (.value (.array items), rest)
    | '{' :: rest => do
      if depth == 0 then none
      let (members, rest) ← members fuel (depth - 1) [] (← gap rest)
      return (.table .braces members, rest)
    | _ => do
      let (v, rest) ← scalar? s
      return (.value v, rest)

/-- The items of an array behind its bracket or a comma. -/
def items : Nat → (depth : Nat) → List Char → Option (List Value × List Char)
  | 0, _, _ => none
  | fuel + 1, depth, s => do
    match ← gap s with
    | ']' :: rest => return ([], rest)
    | s =>
      let (item, rest) ← value fuel depth s
      let v := Outline.itemValue item
      match ← gap rest with
      | ',' :: rest =>
        let (vs, rest) ← items fuel depth rest
        return (v :: vs, rest)
      | ']' :: rest => return ([v], rest)
      | _ => none

/-- The members of a table behind its brace or a comma, where `acc` were read before. -/
def members : Nat → (depth : Nat) → Outline → List Char → Option (Outline × List Char)
  | 0, _, _, _ => none
  | fuel + 1, depth, acc, s =>
    match s with
    | '}' :: rest => some (acc, rest)
    | _ => do
      let (path, k, rest) ← key? (s.length + 1) s
      match rest with
      | '=' :: rest =>
        let (item, rest) ← value fuel depth (skipBlanks rest)
        let acc ← acc.addMember path k item
        match ← gap rest with
        | ',' :: rest => members fuel depth acc (← gap rest)
        | '}' :: rest => return (acc, rest)
        | _ => none
      | _ => none
end

/-- A member on a line of its own: its dotted key and what it stands for. -/
def line? (s : List Char) : Option (List String × String × Item × List Char) := do
  let (path, k, rest) ← key? (s.length + 1) s
  match rest with
  | '=' :: rest =>
    let (item, rest) ← value (2 * rest.length + 2) maxDepth (skipBlanks rest)
    return (path, k, item, rest)
  | _ => none

/-- The lines of a document, where `header` is the path of the table whose header was last. -/
def lines : Nat → (header : List String) → Outline → List Char → Option Outline
  | 0, _, _, _ => none
  | fuel + 1, header, o, s => do
    match ← gap s with
    | [] => return o
    | '[' :: '[' :: rest =>
      let (path, k, rest) ← key? (rest.length + 1) rest
      match rest with
      | ']' :: ']' :: rest =>
        lines fuel (path ++ [k]) (← o.openElement path k) (← endLine? rest)
      | _ => none
    | '[' :: rest =>
      let (path, k, rest) ← key? (rest.length + 1) rest
      match rest with
      | ']' :: rest =>
        lines fuel (path ++ [k]) (← o.openTable path k) (← endLine? rest)
      | _ => none
    | s =>
      let (path, k, item, rest) ← line? s
      lines fuel header (← o.addBelow header path k item) (← endLine? rest)

/-- The text without a byte-order mark at its front. -/
def withoutMark : List Char → List Char
  | '\ufeff' :: rest => rest
  | s => s

/-- The table that a text spells. -/
def parse? (s : String) : Option Table := do
  let text := withoutMark s.toList
  let o ← lines (text.length + 1) [] [] text
  return Outline.toTable o

end Scaffold.Toml.Reader
