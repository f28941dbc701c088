import Scaffold.Template.Token
import Scaffold.Template.Tree

/-!
# Reading templates

The pieces of a template are read as its tree. In expressions parts and calls bind
closest, then a minus sign, then filters and tests, and then in this order: powers,
products, joins, sums, comparisons, `not`, `and`, `or`, and the choice with `if`. Every reader
returns the tokens or pieces that are left, and `fuel` bounds the depth of its calls.
-/

namespace Scaffold.Template.Reader

/-- The tokens break the grammar. -/
def refuse {α : Type} : Except Fault α := .error .invalidSyntax

/-- What follows a given mark. -/
def expect (mark : String) : List Token → Except Fault (List Token)
  | .mark m :: rest => if m = mark then .ok rest else refuse
  | _ => refuse

/-- What follows a given word. -/
def expectWord (word : String) : List Token → Except Fault (List Token)
  | .name n :: rest => if n = word then .ok rest else refuse
  | _ => refuse

/-- A name. -/
def expectName : List Token → Except Fault (String × List Token)
  | .name n :: rest => .ok (n, rest)
  | _ => refuse

/-- The operators of one level of binding, by their marks. -/
def operator? : (level : Nat) → Token → Option Operator
  | 0, .mark "+" => some .add
  | 0, .mark "-" => some .sub
  | 1, .mark "~" => some .concat
  | 2, .mark "*" => some .mul
  | 2, .mark "/" => some .div
  | 2, .mark "//" => some .floorDiv
  | 2, .mark "%" => some .rem
  | 3, .mark "**" => some .pow
  | _, _ => none

/-- The operators that compare, by their marks. -/
def comparison? : Token → Option Operator
  | .mark "==" => some .eq
  | .mark "!=" => some .ne
  | .mark "<" => some .lt
  | .mark "<=" => some .le
  | .mark ">" => some .gt
  | .mark ">=" => some .ge
  | .name "in" => some .isIn
  | _ => none

/-- The number of levels of binary operators. -/
def levels : Nat := 4

/-- The words that do not begin the argument of a test. -/
def isConnective (w : String) : Bool := ["and", "or", "else", "is", "if"].contains w

/-- The token begins the argument of a test that is not in parentheses. -/
def beginsArgument : Token → Bool
  | .name w => !isConnective w
  | .string _ | .integer _ | .float _ => true
  | .mark m => m = "-" || m = "[" || m = "\x7b"

/-- The value of a word that is a literal. -/
def literal? : String → Option Value
  | "true" | "True" => some (.bool true)
  | "false" | "False" => some (.bool false)
  | "none" | "None" => some .none
  | _ => none

mutual
/-- An expression. -/
def expr : Nat → List Token → Except Fault (Expr × List Token)
  | 0, _ => refuse
  | fuel + 1, ts => do
    let (e, ts) ← disjunction fuel ts
    choices fuel e ts

/-- Choices behind an expression. -/
def choices : Nat → Expr → List Token → Except Fault (Expr × List Token)
  | 0, _, _ => refuse
  | fuel + 1, e, .name "if" :: ts => do
    let (test, ts) ← disjunction fuel ts
    match ts with
    | .name "else" :: ts =>
      let (other, ts) ← expr fuel ts
      choices fuel (.choice test e other) ts
    | _ => choices fuel (.choice test e (.constant (.undefined true))) ts
  | _, e, ts => .ok (e, ts)

/-- Operands of `or`. -/
def disjunction : Nat → List Token → Except Fault (Expr × List Token)
  | 0, _ => refuse
  | fuel + 1, ts => do
    let (e, ts) ← conjunction fuel ts
    moreDisjuncts fuel e ts

/-- Further operands of `or`. -/
def moreDisjuncts : Nat → Expr → List Token → Except Fault (Expr × List Token)
  | 0, _, _ => refuse
  | fuel + 1, e, .name "or" :: ts => do
    let (f, ts) ← conjunction fuel ts
    moreDisjuncts fuel (.or e f) ts
  | _, e, ts => .ok (e, ts)

/-- Operands of `and`. -/
def conjunction : Nat → List Token → Except Fault (Expr × List Token)
  | 0, _ => refuse
  | fuel + 1, ts => do
    let (e, ts) ← negation fuel ts
    moreConjuncts fuel e ts

/-- Further operands of `and`. -/
def moreConjuncts : Nat → Expr → List Token → Except Fault (Expr × List Token)
  | 0, _, _ => refuse
  | fuel + 1, e, .name "and" :: ts => do
    let (f, ts) ← negation fuel ts
    moreConjuncts fuel (.and e f) ts
  | _, e, ts => .ok (e, ts)

/-- An operand of `not`. -/
def negation : Nat → List Token → Except Fault (Expr × List Token)
  | 0, _ => refuse
  | fuel + 1, .name "not" :: ts => do
    let (e, ts) ← negation fuel ts
    return (.not e, ts)
  | fuel + 1, ts => do
    let (e, ts) ← binary fuel 0 ts
    comparisons fuel e ts

/-- Comparisons behind an expression. -/
def comparisons : Nat → Expr → List Token → Except Fault (Expr × List Token)
  | 0, _, _ => refuse
  | fuel + 1, e, .name "not" :: ts => do
    let ts ← expectWord "in" ts
    let (f, ts) ← binary fuel 0 ts
    comparisons fuel (.not (.binary .isIn e f)) ts
  | fuel + 1, e, t :: ts =>
    match comparison? t with
    | some op => do
      let (f, ts) ← binary fuel 0 ts
      comparisons fuel (.binary op e f) ts
    | none => .ok (e, t :: ts)
  | _, e, [] => .ok (e, [])

/-- Operands of the binary operators from a level on. -/
def binary : Nat → (level : Nat) → List Token → Except Fault (Expr × List Token)
  | 0, _, _ => refuse
  | fuel + 1, level, ts => do
    if level < levels then
      let (e, ts) ← binary fuel (level + 1) ts
      moreOperands fuel level e ts
    else
      let (e, ts) ← signed fuel ts
      let (e, ts) ← postfixes fuel e ts
      filters fuel e ts

/-- Further operands of a level. -/
def moreOperands : Nat → (level : Nat) → Expr → List Token → Except Fault (Expr × List Token)
  | 0, _, _, _ => refuse
  | fuel + 1, level, e, t :: ts =>
    match operator? level t with
    | some op => do
      let (f, ts) ← binary fuel (level + 1) ts
      moreOperands fuel level (.binary op e f) ts
    | none => .ok (e, t :: ts)
  | _, _, e, [] => .ok (e, [])

/-- An operand with its minus signs. -/
def signed : Nat → List Token → Except Fault (Expr × List Token)
  | 0, _ => refuse
  | fuel + 1, .mark "-" :: ts => do
    let (e, ts) ← signed fuel ts
    return (.neg e, ts)
  | fuel + 1, ts => primary fuel ts

/-- An operand: a literal, a name, or an expression in brackets. -/
def primary : Nat → List Token → Except Fault (Expr × List Token)
  | 0, _ => refuse
  | fuel + 1, ts =>
    match ts with
    | .name n :: ts =>
      match literal? n with
      | some v => .ok (.constant v, ts)
      | none => .ok (.var n, ts)
    | .string s :: ts => .ok (.constant (.string s), ts)
    | .integer n :: ts => .ok (.constant (.integer n), ts)
    | .float d :: ts => .ok (.constant (.float d), ts)
    | .mark "(" :: .mark ")" :: ts => .ok (.list [], ts)
    | .mark "(" :: ts => do
      let (e, ts) ← expr fuel ts
      match ts with
      | .mark "," :: ts =>
        let (es, ts) ← items fuel ")" ts
        return (.list (e :: es), ts)
      | ts => return (e, ← expect ")" ts)
    | .mark "[" :: ts => do
      let (es, ts) ← items fuel "]" ts
      return (.list es, ts)
    | .mark "\x7b" :: ts => do
      let (keys, values, ts) ← entries fuel ts
      return (.map keys values, ts)
    | _ => refuse

/-- Expressions with commas between them up to a closing mark. -/
def items : Nat → (closer : String) → List Token → Except Fault (List Expr × List Token)
  | 0, _, _ => refuse
  | fuel + 1, closer, ts =>
    match expect closer ts with
    | .ok ts => .ok ([], ts)
    | .error _ => do
      let (e, ts) ← expr fuel ts
      match ts with
      | .mark "," :: ts =>
        let (es, ts) ← items fuel closer ts
        return (e :: es, ts)
      | ts => return ([e], ← expect closer ts)

/-- Entries with commas between them up to a closing brace. -/
def entries : Nat → List Token → Except Fault (List Expr × List Expr × List Token)
  | 0, _ => refuse
  | _ + 1, .mark "\x7d" :: ts => .ok ([], [], ts)
  | fuel + 1, ts => do
    let (k, ts) ← expr fuel ts
    let (v, ts) ← expr fuel (← expect ":" ts)
    match ts with
    | .mark "," :: ts =>
      let (ks, vs, ts) ← entries fuel ts
      return (k :: ks, v :: vs, ts)
    | ts => return ([k], [v], ← expect "\x7d" ts)

/-- Parts and calls behind an operand. -/
def postfixes : Nat → Expr → List Token → Except Fault (Expr × List Token)
  | 0, _, _ => refuse
  | fuel + 1, e, ts =>
    match ts with
    | .mark "." :: ts => do
      let (n, ts) ← expectName ts
      match ts with
      | .mark "(" :: ts =>
        let (args, ts) ← items fuel ")" ts
        postfixes fuel (.method e n args) ts
      | ts => postfixes fuel (.part e (.constant (.string n))) ts
    | .mark "[" :: ts => do
      let (key, ts) ← expr fuel ts
      postfixes fuel (.part e key) (← expect "]" ts)
    | .mark "(" :: ts => do
      let (args, ts) ← items fuel ")" ts
      match e with
      | .var n => postfixes fuel (.call n args) ts
      | e => postfixes fuel (.apply e args) ts
    | ts => .ok (e, ts)

/-- Filters and tests behind an operand. -/
def filters : Nat → Expr → List Token → Except Fault (Expr × List Token)
  | 0, _, _ => refuse
  | fuel + 1, e, ts =>
    match ts with
    | .mark "|" :: ts => do
      let (n, ts) ← expectName ts
      match ts with
      | .mark "(" :: ts =>
        let (args, ts) ← items fuel ")" ts
        filters fuel (.filter e n args) ts
      | ts => filters fuel (.filter e n []) ts
    | .name "is" :: .name "not" :: ts => do
      let (n, ts) ← expectName ts
      let (args, ts) ← testArguments fuel ts
      filters fuel (.not (.test e n args)) ts
    | .name "is" :: ts => do
      let (n, ts) ← expectName ts
      let (args, ts) ← testArguments fuel ts
      filters fuel (.test e n args) ts
    | ts => .ok (e, ts)

/-- The arguments of a test, of which a single one needs no parentheses. -/
def testArguments : Nat → List Token → Except Fault (List Expr × List Token)
  | 0, _ => refuse
  | fuel + 1, ts =>
    match ts with
    | .mark "(" :: ts => items fuel ")" ts
    | t :: rest =>
      if beginsArgument t then do
        let (e, ts) ← signed fuel (t :: rest)
        let (e, ts) ← postfixes fuel e ts
        return ([e], ts)
      else .ok ([], t :: rest)
    | [] => .ok ([], [])
end

/-- A bound on the depth of calls: every token is met by less than twenty of them. -/
def bound (ts : List Token) : Nat := 20 * (ts.length + 2)

/-- An expression and nothing more. -/
def wholeExpr (ts : List Token) : Except Fault Expr := do
  let (e, rest) ← expr (bound ts) ts
  if rest.isEmpty then return e else refuse

/-- Names that cannot be bound. -/
def isReserved (n : String) : Bool := (literal? n).isSome || n = "loop" || n = "self"

/-- Targets with commas between them, up to a token that begins none. -/
def targets : Nat → List Token → Except Fault ((List Target × Bool) × List Token)
  | 0, _ => refuse
  | fuel + 1, ts => do
    let single : Except Fault (Target × List Token) :=
      match ts with
      | .name n :: rest => if isReserved n then refuse else .ok (.name n, rest)
      | .mark "(" :: rest => do
        let ((inner, isList), rest) ← targets fuel rest
        let rest ← expect ")" rest
        match inner, isList with
        | [t], false => return (t, rest)
        | inner, _ => return (.list inner, rest)
      | _ => refuse
    let (t, rest) ← single
    match rest with
    | .mark "," :: more =>
      match more with
      | .name "in" :: _ | .mark "=" :: _ | .mark ")" :: _ | [] => return (([t], true), more)
      | _ =>
        let ((ts, _), rest) ← targets fuel more
        return ((t :: ts, true), rest)
    | rest => return (([t], false), rest)

/-- What a value is bound to. -/
def target (ts : List Token) : Except Fault (Target × List Token) := do
  let ((inner, isList), rest) ← targets (ts.length + 1) ts
  match inner, isList with
  | [t], false => return (t, rest)
  | inner, _ => return (.list inner, rest)

/-- The head of a loop: what each item is bound to, the items, and which of them count. -/
def loopHead (ts : List Token) : Except Fault (Target × Expr × Expr) := do
  let (t, ts) ← target ts
  let ts ← expectWord "in" ts
  let (e, ts) ← disjunction (bound ts) ts
  match ts with
  | .name "if" :: ts => return (t, e, ← wholeExpr ts)
  | [] => return (t, e, .constant (.bool true))
  | _ => refuse

/-- The bindings of a scope. -/
def bindings : Nat → List Token → Except Fault (List Target × List Expr)
  | 0, _ => refuse
  | _ + 1, [] => .ok ([], [])
  | fuel + 1, ts => do
    let (t, ts) ← match ts with
      | .mark "(" :: _ => target ts
      | .name n :: rest => if isReserved n then refuse else .ok (.name n, rest)
      | _ => refuse
    let ts ← expect "=" ts
    let (e, ts) ← expr (bound ts) ts
    match ts with
    | [] => return ([t], [e])
    | ts =>
      let (rest, es) ← bindings fuel (← expect "," ts)
      return (t :: rest, e :: es)

/-- What comes behind the nodes of a block: a tag that ends it, or the end of the template. -/
abbrev Rest := List Piece

/-- The word of a tag and what follows it. -/
def tagWord? : List Token → Option (String × List Token)
  | .name w :: rest => some (w, rest)
  | _ => none

mutual
/-- The nodes up to a tag with one of the given words: the word, the tokens behind it, and the
pieces behind the tag. At the top there is no such tag. -/
def nodes : Nat → (stops : List String) → Rest →
    Except Fault (List Node × String × List Token × Rest)
  | 0, _, _ => refuse
  | _ + 1, stops, [] => if stops.isEmpty then .ok ([], "", [], []) else refuse
  | fuel + 1, stops, piece :: rest =>
    match piece with
    | .text s => do
      let (ns, end_) ← nodes fuel stops rest
      return (.text s :: ns, end_)
    | .output ts => do
      let e ← wholeExpr ts
      let (ns, end_) ← nodes fuel stops rest
      return (.output e :: ns, end_)
    | .tag ts =>
      match tagWord? ts with
      | none => refuse
      | some (word, ts) =>
        if stops.contains word then .ok ([], word, ts, rest)
        else do
          let (n, rest) ← tag fuel word ts rest
          let (ns, end_) ← nodes fuel stops rest
          return (n :: ns, end_)

/-- The node of a tag that is not the end of a block, and the pieces behind it. -/
def tag : Nat → (word : String) → List Token → Rest → Except Fault (Node × Rest)
  | 0, _, _, _ => refuse
  | fuel + 1, "if", ts, rest => conditional fuel ts rest
  | fuel + 1, "for", ts, rest => do
    let (t, e, keep) ← loopHead ts
    let (body, word, ts, rest) ← nodes fuel ["endfor", "else"] rest
    if !ts.isEmpty then refuse
    else if word = "else" then
      let (other, _, ts, rest) ← nodes fuel ["endfor"] rest
      if ts.isEmpty then return (.loop t e keep body other, rest) else refuse
    else return (.loop t e keep body [], rest)
  | fuel + 1, "set", ts, rest => do
    let (t, ts) ← target ts
    match ts with
    | [] =>
      let (body, _, ts, rest) ← nodes fuel ["endset"] rest
      if ts.isEmpty then return (.capture t body, rest) else refuse
    | ts => return (.set t (← wholeExpr (← expect "=" ts)), rest)
  | fuel + 1, "with", ts, rest => do
    let (targets, values) ← bindings (ts.length + 1) ts
    let (body, _, ts, rest) ← nodes fuel ["endwith"] rest
    if ts.isEmpty then return (.scope targets values body, rest) else refuse
  | _ + 1, _, _, _ => refuse

/-- A condition behind its word, with what follows it up to the end. -/
def conditional : Nat → List Token → Rest → Except Fault (Node × Rest)
  | 0, _, _ => refuse
  | fuel + 1, ts, rest => do
    let e ← wholeExpr ts
    let (body, word, ts, rest) ← nodes fuel ["endif", "else", "elif"] rest
    match word with
    | "elif" =>
      let (n, rest) ← conditional fuel ts rest
      return (.cond e body [n], rest)
    | "else" =>
      if !ts.isEmpty then refuse
      else
        let (other, _, ts, rest) ← nodes fuel ["endif"] rest
        if ts.isEmpty then return (.cond e body other, rest) else refuse
    | _ => if ts.isEmpty then return (.cond e body [], rest) else refuse
end

/-- The tree of a template. -/
def template (s : String) : Except Fault (List Node) := do
  let pieces ← Piece.ofTemplate s
  let (ns, _) ← nodes (2 * pieces.length + 2) [] pieces
  return ns

end Scaffold.Template.Reader
