import Descriptor.Script.Grammar.Expression
import Descriptor.Script.Grammar.Pattern

/-!
# Grammar of statements

The rules by which lexemes make up statements, blocks and a module. A compound statement has its
body behind a colon: either simple statements on the same line, or the lines that follow with more
indentation than the statement's own block has. A block goes on until a line with less indentation
than its first one; lines with more belong to it as well.

A part of the grammar to run with, which `Descriptor.Script.Grammar.Module` puts together.

## Main definitions

* `simpleLine` : the simple statements of a line.
* `block` : the statements of a block, given the indentation of its first line.
* `suite` : the body of a compound statement, given the indentation of the block around it.
-/

namespace Descriptor.Script

/-! ### Simple statements -/

/-- The lexemes behind words with commas between them. -/
def wordList (ls : List Lexeme) : Outcome (List Lexeme) :=
  match ls with
  | l :: rest =>
    match l.token with
    | .word _ =>
      match rest with
      | m :: more => if m.token = .symbol "," then wordList more else .ok rest
      | [] => .ok rest
    | _ => fail ls
  | [] => fail ls

/-- The lexemes behind the names of an import, which a comma may end. In parentheses (`enclosed`)
they may stand on several lines. -/
def importList : Nat → Bool → List Lexeme → Outcome (List Lexeme)
  | 0, _, ls => fail ls
  | n + 1, enclosed, ls => do
    let (_, ls) ← expectWord ls
    let ls ← dottedRest ls
    let ls ← if startsWith (.word "as") ls then do
        let (_, ls) ← expectWord ls.tail
        pure ls
      else pure ls
    if startsWith (.symbol ",") ls then
      if if enclosed then startsWith (.symbol ")") ls.tail else atStatementEnd ls.tail then
        .ok ls.tail
      else importList n enclosed ls.tail
    else .ok ls

/-- The lexemes behind leading dots. -/
def dropDots : List Lexeme → List Lexeme
  | [] => []
  | l :: rest =>
    if l.token = .symbol "." || l.token = .symbol "..." then dropDots rest else l :: rest

/-- The lexemes behind the module of an import, which dots may precede or stand for. -/
def importSource (ls : List Lexeme) : Outcome (List Lexeme) :=
  let rest := dropDots ls
  if rest.length < ls.length && startsWith (.word "import") rest then .ok rest
  else do
    let (_, ls) ← expectWord rest
    dottedRest ls

/-- The lexemes behind an import from a module, given those behind its first word. -/
def importFrom (n : Nat) (ls : List Lexeme) : Outcome (List Lexeme) := do
  let ls ← importSource ls
  let ls ← expect (.word "import") ls
  if startsWith (.symbol "*") ls then .ok ls.tail
  else if startsWith (.symbol "(") ls then do
    let ls ← importList n true ls.tail
    expect (.symbol ")") ls
  else importList n false ls

/-- The lexemes behind expressions, where nothing may stand. -/
def optionalList (n : Nat) (ls : List Lexeme) : Outcome (List Lexeme) :=
  if startsExpression ((next? .line ls).map (·.1)) && !startsWith (.word "from") ls then do
    let (_, ls) ← expressionList n .line ls
    .ok ls
  else .ok ls

/-- Expressions with commas between them as one: a single one without a comma is itself, and several
are of the given kind. -/
def listOf (kind : String) (ls rest : List Lexeme) (rs : List Reading) (trailing : Bool) : Node :=
  match rs, trailing with
  | [r], false => r.node
  | rs, _ => .over kind ls rest (rs.map (·.node))

/-- The kind of the assignment that a symbol makes. -/
def assignmentKind (s : String) : String := if s = "=" then "assignment" else "augmented_assignment"

/-- What stands on the right of an assignment: a value or a further assignment. -/
def assigned : Nat → List Lexeme → Outcome (Node × List Lexeme)
  | 0, ls => fail ls
  | n + 1, ls => do
    let ((values, trailing), rest) ← yielded n .line ls
    match next? .line rest with
    | some (.symbol s, more) =>
      if s = "=" || isAugmentation s then
        if values.all (·.isTarget) then do
          let (_, rest) ← assigned n more
          .ok (.closed (assignmentKind s) ls rest, rest)
        else fail rest
      else valueOf ls values trailing rest
    | _ => valueOf ls values trailing rest
where
  /-- One expression, or several. Those with stars are a list of patterns. -/
  valueOf (ls : List Lexeme) (values : List Reading) (trailing : Bool) (rest : List Lexeme) :
      Outcome (Node × List Lexeme) :=
    if !Reading.listed trailing values then fail rest
    else
      let starred := values.any (·.shape.isStarred)
      let kind := if starred then "pattern_list" else "expression_list"
      .ok (listOf kind ls rest values trailing, rest)

/-- A statement that consists of an assignment, given the kind of the assignment and its parts. -/
def assignment (kind : String) (ls rest : List Lexeme) (parts : List Node) : Node :=
  .over "expression_statement" ls rest [.over kind ls rest parts]

/-- An assignment, or expressions on their own. -/
def expressionStatement (n : Nat) (ls : List Lexeme) : Outcome (Node × List Lexeme) := do
  let ((readings, trailing), rest) ← yielded n .line ls
  let alone : Outcome (Node × List Lexeme) :=
    if readings.any (·.shape.isStarred) then fail rest
    else .ok (.over "expression_statement" ls rest (readings.map (·.node)), rest)
  let left := (listOf "pattern_list" ls rest readings trailing).as "left"
  match next? .line rest with
  | some (.symbol s, more) =>
    if s = "=" || isAugmentation s || s = ":" then
      if !readings.all (·.isTarget) then fail rest
      else if s = ":" then do
        let rest ← annotation n .line more
        let type := (Node.closed "type" more rest).as "type"
        if startsWith (.symbol "=") rest && !atLineEnd rest then do
          let (right, rest) ← assigned n rest.tail
          .ok (assignment "assignment" ls rest [left, type, right.as "right"], rest)
        else .ok (assignment "assignment" ls rest [left, type], rest)
      else do
        let (right, rest) ← assigned n more
        .ok (assignment (assignmentKind s) ls rest [left, right.as "right"], rest)
    else alone
  | _ => alone

/-- An expression statement that the line has nothing behind, or else one of the given kind. -/
def expressionStatementOr (n : Nat) (kind : String) (other : Outcome (List Lexeme))
    (ls : List Lexeme) : Outcome (Node × List Lexeme) :=
  let plain : Outcome (Node × List Lexeme) := do
    let rest ← other
    .ok (.closed kind ls rest, rest)
  match expressionStatement n ls with
  | .ok (s, rest) => if atStatementEnd rest then .ok (s, rest) else plain
  | .error _ => plain

/-- The lexemes behind expressions with commas between them, which a comma may end. -/
def printed (n : Nat) (ls : List Lexeme) : Outcome (List Lexeme) := do
  let (_, ls) ← expressionList n .line ls
  .ok ls

/-- The lexemes behind expressions with commas between them, none at the end. -/
def asserted (n : Nat) (ls : List Lexeme) : Outcome (List Lexeme) := do
  let ((_, trailing), ls) ← expressionList n .line ls
  if trailing then fail ls else .ok ls

/-- The lexemes behind code that is run from a text, given those behind its first word. -/
def executed (n : Nat) (ls : List Lexeme) : Outcome (List Lexeme) :=
  match ls with
  | [] => fail ls
  | _ :: rest =>
    if startsWith (.word "in") rest && !atLineEnd rest then asserted n rest.tail else .ok rest

/-- The lexemes behind the definition of a name for a type, given those behind its first word. -/
def typeAlias (n : Nat) (ls : List Lexeme) : Outcome (List Lexeme) := do
  let ls ← annotation n .inner ls
  let ls ← expect (.symbol "=") ls
  annotation n .line ls

/-- Whether a text or name to run comes next on the line. -/
def startsCode (ls : List Lexeme) : Bool :=
  match next? .line ls with
  | some (.literal _, _) => true
  | some (.word w, _) => !followsOperand w
  | _ => false

/-- A statement of one line. -/
def simpleStatement (n : Nat) (ls : List Lexeme) : Outcome (Node × List Lexeme) :=
  match ls with
  | [] => fail ls
  | l :: rest =>
    let plain (kind : String) (behind : Outcome (List Lexeme)) : Outcome (Node × List Lexeme) := do
      let rest ← behind
      .ok (.closed kind ls rest, rest)
    match l.token with
    | .word "import" => plain "import_statement" (importList n false rest)
    | .word "from" => plain "import_from_statement" (importFrom n rest)
    | .word "print" =>
      if startsWith (.symbol ">>") rest && !atLineEnd rest then
        plain "print_statement" (printed n rest.tail)
      else expressionStatementOr n "print_statement" (printed n rest) ls
    | .word "exec" =>
      if startsCode rest then plain "exec_statement" (executed n rest) else expressionStatement n ls
    | .word "type" => expressionStatementOr n "type_alias_statement" (typeAlias n rest) ls
    | .word "assert" => plain "assert_statement" (asserted n rest)
    | .word "del" => plain "delete_statement" (printed n rest)
    | .word "return" => plain "return_statement" (optionalList n rest)
    | .word "raise" => plain "raise_statement" do
      let ls ← optionalList n rest
      if startsWith (.word "from") ls && !atLineEnd ls then do
        let (_, ls) ← expression n .line ls.tail
        .ok ls
      else .ok ls
    | .word "pass" => plain "pass_statement" (.ok rest)
    | .word "break" => plain "break_statement" (.ok rest)
    | .word "continue" => plain "continue_statement" (.ok rest)
    | .word "global" => plain "global_statement" (wordList rest)
    | .word "nonlocal" => plain "nonlocal_statement" (wordList rest)
    | _ => expressionStatement n ls

/-- The simple statements of a line. -/
def simpleLine : Nat → List Lexeme → Outcome (List Node × List Lexeme)
  | 0, ls => fail ls
  | n + 1, ls => do
    let (s, ls) ← simpleStatement n ls
    if atLineEnd ls then .ok ([s], ls)
    else do
      let ls ← expect (.symbol ";") ls
      if atLineEnd ls then .ok ([s], ls)
      else do
        let (more, ls) ← simpleLine n ls
        .ok (s :: more, ls)

/-! ### Compound statements -/

/-- Whether the block of the given indentation has ended before the next lexeme. -/
def dedented (margin : Nat) : List Lexeme → Bool
  | [] => true
  | l :: _ => l.indent.any (· < margin)

/-- Whether the block goes on with the given word. -/
def continues (margin : Nat) (w : String) (ls : List Lexeme) : Bool :=
  startsWith (.word w) ls && !dedented margin ls

/-- The lexemes behind the colon of a header, and the text behind it. -/
def headerEnd (ls : List Lexeme) : Outcome (List Char × List Lexeme) :=
  match ls with
  | l :: rest => if l.token = .symbol ":" then .ok (l.after, rest) else fail ls
  | [] => fail ls

/-- The indentation of the lines that a body starts with, unless it has none. -/
def bodyMargin? (margin : Nat) : List Lexeme → Option Nat
  | [] => none
  | l :: _ => l.indent.filter (margin < ·)

/-- The lexemes behind the type parameters of a definition, if it has any. -/
def typeParameters : Nat → List Lexeme → Outcome (List Lexeme)
  | 0, ls => fail ls
  | n + 1, ls => do
    let ls ← annotation n .inner ls
    let ls ← if startsWith (.symbol ":") ls then annotation n .inner ls.tail else pure ls
    if startsWith (.symbol "]") ls then .ok ls.tail
    else do
      let ls ← expect (.symbol ",") ls
      if startsWith (.symbol "]") ls then .ok ls.tail else typeParameters n ls

/-- The name of a definition, and the lexemes behind it and its type parameters. -/
def definitionName (n : Nat) (ls : List Lexeme) : Outcome (Node × List Lexeme) := do
  let (name, ls) ← expectWord ls
  let ls ← if startsWith (.symbol "[") ls then typeParameters n ls.tail else pure ls
  .ok (name, ls)

/-- The parts of the header of a function definition behind its first word, without the colon. -/
def functionHeader (n : Nat) (ls : List Lexeme) : Outcome (List Node × List Lexeme) := do
  let (name, ls) ← definitionName n ls
  let rest ← expect (.symbol "(") ls
  let rest ← parameters n true (.symbol ")") rest
  let parts := [name.as "name", (Node.over "parameters" ls rest []).as "parameters"]
  if startsWith (.symbol "->") rest then do
    let behind ← annotation n .inner rest.tail
    .ok (parts ++ [(Node.closed "type" rest.tail behind).as "return_type"], behind)
  else .ok (parts, rest)

/-- The header of a class definition behind its first word, without the colon. -/
def classHeader (n : Nat) (ls : List Lexeme) : Outcome (List Lexeme) := do
  let (_, ls) ← definitionName n ls
  if startsWith (.symbol "(") ls then do
    let (_, ls) ← arguments n ls ls.tail
    .ok ls
  else .ok ls

/-- The header of a handler, without the colon. A star that is part of its first word makes it a
handler of groups, which has to say what it handles. -/
def handlerHeader (n : Nat) (ls : List Lexeme) : Outcome (List Lexeme) :=
  let rest := ls.tail
  if (ls.head?.bind (·.after.head?)) = some '*' then do
    let rest ← expect (.symbol "*") rest
    let (_, ls) ← expression n .inner rest
    .ok ls
  else if startsWith (.symbol ":") rest then .ok rest
  else do
    let (_, ls) ← expression n .inner rest
    if startsWith (.symbol ",") ls then do
      let (_, ls) ← expression n .inner ls.tail
      .ok ls
    else .ok ls

/-- The word that a statement starts with, `async` being passed over where it qualifies one. -/
def leadingWord (ls : List Lexeme) : String × List Lexeme :=
  match ls with
  | l :: rest =>
    match l.token, next? .line rest with
    | .word "async", some (.word w, more) =>
      if ["def", "for", "with"].contains w then ("async " ++ w, more) else ("", ls)
    | .word w, _ => (w, rest)
    | .symbol "@", _ => ("@", rest)
    | _, _ => ("", ls)
  | [] => ("", ls)

/-- The numbers of brackets that a token opens and closes. A literal with fields counts as
bracketed. -/
def bracketing : Token → Nat × Nat
  | .symbol s =>
    (if ["(", "[", "\x7b"].contains s then 1 else 0, if [")", "]", "\x7d"].contains s then 1 else 0)
  | .formatOpen => (1, 0)
  | .formatClose => (0, 1)
  | _ => (0, 0)

/-- Whether every line that a statement goes on with is indented at least as far as its block. A
line may be indented less inside brackets, of which `depth` are open, and where it starts with a
quote. -/
def keepsMargin (margin : Nat) : Nat → List Lexeme → Bool
  | _, [] => true
  | depth, l :: ls =>
    let opens := bracketing l.token
    (depth ≠ 0 || !l.indent.any (· < margin) || l.start.head?.any isOpeningQuote) &&
      keepsMargin margin (depth + opens.1 - opens.2) ls

/-- A definition behind its decorator, which is itself or stands behind further ones. -/
def decorated (ls rest : List Lexeme) (decorator definition : Node) : Node :=
  let parts := if definition.kind = "decorated_definition" then definition.children
    else [definition.as "definition"]
  .over "decorated_definition" ls rest (decorator :: parts)

mutual

/-- The statements of a block whose first line has the given indentation. -/
def block : Nat → Nat → List Lexeme → Outcome (List Node × List Lexeme)
  | 0, _, ls => fail ls
  | n + 1, margin, ls =>
    if dedented margin ls then .ok ([], ls)
    else do
      let (ss, rest) ← statement n margin ls
      if margin ≠ 0 && !keepsMargin margin 0 (runUntil ls rest) then fail ls
      let (more, rest) ← block n margin rest
      .ok (ss ++ more, rest)

/-- The body of a compound statement in a block of the given indentation, from the colon on. -/
def suite : Nat → Nat → List Lexeme → Outcome (Node × List Lexeme)
  | 0, _, ls => fail ls
  | n + 1, margin, ls => do
    let (after, ls) ← headerEnd ls
    let (ss, rest) ←
      if !atLineEnd ls then simpleLine n ls
      else
        match bodyMargin? margin ls with
        | some inner => block n inner ls
        | none => .error (.missingBlock after)
    .ok (.over "block" ls rest ss, rest)

/-- A compound statement, or the simple statements of a line. -/
def statement : Nat → Nat → List Lexeme → Outcome (List Node × List Lexeme)
  | 0, _, ls => fail ls
  | n + 1, margin, ls =>
    let (word, rest) := leadingWord ls
    let plain (kind : String) (behind : Outcome (List Lexeme)) :
        Outcome (List Node × List Lexeme) := do
      let rest ← behind
      .ok ([.closed kind ls rest], rest)
    if word = "if" then do
      let (test, rest) ← expression n .inner rest
      let (body, rest) ← suite n margin rest
      let (others, rest) ← alternatives n margin rest
      let parts := test.node.as "condition" :: body.as "consequence" :: others
      .ok ([.over "if_statement" ls rest parts], rest)
    else if word = "while" then plain "while_statement" do
      let (_, ls) ← expression n .inner rest
      let (_, ls) ← suite n margin ls
      return (← alternative n margin "else" ls).2
    else if word = "for" || word = "async for" then plain "for_statement" do
      let ls ← targets n rest
      let (_, ls) ← expressionList n .inner ls
      let (_, ls) ← suite n margin ls
      return (← alternative n margin "else" ls).2
    else if word = "try" then plain "try_statement" do
      let (_, ls) ← suite n margin rest
      if continues margin "finally" ls then return (← alternative n margin "finally" ls).2
      else handlers n margin ls
    else if word = "with" || word = "async with" then plain "with_statement" do
      let (_, ls) ← expressionList n .inner rest
      let (_, ls) ← suite n margin ls
      .ok ls
    else if word = "class" then plain "class_definition" do
      let ls ← classHeader n rest
      let (_, ls) ← suite n margin ls
      .ok ls
    else if word = "def" || word = "async def" then do
      let (header, rest) ← functionHeader n rest
      let (body, rest) ← suite n margin rest
      .ok ([.over "function_definition" ls rest (header ++ [body.as "body"])], rest)
    else if word = "@" then do
      let (_, behind) ← expression n .line rest
      let decorator := Node.closed "decorator" ls behind
      if !atLineEnd behind || dedented margin behind then fail behind
      else if ["@", "def", "async def", "class"].contains (leadingWord behind).1 then do
        let (definitions, rest) ← statement n margin behind
        .ok (definitions.map (decorated ls rest decorator), rest)
      else fail behind
    else if word = "match" then
      match simpleLine n ls with
      | .ok r => .ok r
      | .error _ => plain "match_statement" do
        let (_, ls) ← expressionList n .inner rest
        cases n margin ls
    else simpleLine n ls

/-- The further branches of a condition. -/
def alternatives : Nat → Nat → List Lexeme → Outcome (List Node × List Lexeme)
  | 0, _, ls => fail ls
  | n + 1, margin, ls =>
    if continues margin "elif" ls then do
      let (_, rest) ← expression n .inner ls.tail
      let (_, rest) ← suite n margin rest
      let (more, last) ← alternatives n margin rest
      .ok ((Node.closed "elif_clause" ls rest).as "alternative" :: more, last)
    else alternative n margin "else" ls

/-- A body behind the given word, if the block goes on with it. -/
def alternative : Nat → Nat → String → List Lexeme → Outcome (List Node × List Lexeme)
  | 0, _, _, ls => fail ls
  | n + 1, margin, w, ls =>
    if continues margin w ls then do
      let (_, rest) ← suite n margin ls.tail
      .ok ([(Node.closed (w ++ "_clause") ls rest).as "alternative"], rest)
    else .ok ([], ls)

/-- The handlers of a `try`, of which there is at least one, and what may stand behind them. -/
def handlers : Nat → Nat → List Lexeme → Outcome (List Lexeme)
  | 0, _, ls => fail ls
  | n + 1, margin, ls =>
    if continues margin "except" ls then do
      let ls ← handlerHeader n ls
      let (_, ls) ← suite n margin ls
      if continues margin "except" ls then handlers n margin ls
      else do
        let (_, ls) ← alternative n margin "else" ls
        return (← alternative n margin "finally" ls).2
    else fail ls

/-- The cases of a `match`, from its colon on. -/
def cases : Nat → Nat → List Lexeme → Outcome (List Lexeme)
  | 0, _, ls => fail ls
  | n + 1, margin, ls => do
    let (after, ls) ← headerEnd ls
    if !atLineEnd ls then fail ls
    else
      match bodyMargin? margin ls with
      | some inner => casesRest n inner ls
      | none => .error (.missingBlock after)

/-- The further cases of a `match`. -/
def casesRest : Nat → Nat → List Lexeme → Outcome (List Lexeme)
  | 0, _, ls => fail ls
  | n + 1, margin, ls =>
    if dedented margin ls then .ok ls
    else do
      let ls ← expect (.word "case") ls
      let ls ← patternList n ls
      let ls ← if startsWith (.word "if") ls then do
          let (_, ls) ← expression n .inner ls.tail
          pure ls
        else pure ls
      let (_, ls) ← suite n margin ls
      casesRest n margin ls

end

end Descriptor.Script
