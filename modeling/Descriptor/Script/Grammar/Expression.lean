import Descriptor.Script.Grammar.Reading

/-!
# Grammar of expressions

The rules by which lexemes make up expressions. The parts of literals of text, names, displays,
calls, attributes and comparisons are told apart; the other expressions are read to know where they
end, and their nodes have no parts.

Every rule carries a bound on the depth of its recursion. `depthFor` is a bound that no script of
the given number of lexemes reaches.

A part of the grammar to run with, which `Descriptor.Script.Grammar.Module` puts together.

## Main definitions

* `expression` : an expression, up to a conditional one.
* `trailed` : an operand with its attributes, calls and subscripts.
* `expressionList` : expressions with commas between them.
* `targets` : what the word `in` of a loop or clause is preceded by.
* `arguments` : the arguments of a call.
* `parameters` : the parameters of a function.
-/

namespace Descriptor.Script

/-- A bound on the depth of the rules over so many lexemes. -/
def depthFor (lexemes : Nat) : Nat := 16 * (lexemes + 4)

/-- Whether an argument is given by keyword or as a whole mapping. -/
def isKeywordArgument (n : Node) : Bool :=
  n.kind = "keyword_argument" || n.kind = "dictionary_splat"

mutual

/-- An expression. -/
def expression : Nat → Frame → List Lexeme → Outcome (Reading × List Lexeme)
  | 0, _, ls => fail ls
  | n + 1, fr, ls => do
    let (r, rest) ← condition n fr ls
    expressionRest n fr ls r rest

/-- What joins further conditions to one that has been read, which starts with the first lexemes
given. -/
def expressionRest :
    Nat → Frame → List Lexeme → Reading → List Lexeme → Outcome (Reading × List Lexeme)
  | 0, _, _, _, ls => fail ls
  | n + 1, fr, whole, r, ls =>
    match next? fr ls with
    | some (.word w, rest) =>
      if w = "and" || w = "or" || w = "as" then do
        let (_, ls) ← condition n fr rest
        let kind := if w = "as" then "as_pattern" else "boolean_operator"
        expressionRest n fr whole (.closed kind whole ls) ls
      else if w = "if" && !fr.guarded then do
        let (_, ls) ← expression n .inner rest
        let ls ← expect (.word "else") ls
        let (_, ls) ← condition n fr ls
        expressionRest n fr whole (.closed "conditional_expression" whole ls) ls
      else .ok (r, ls)
    | _ => .ok (r, ls)

/-- A negation, an anonymous function, a named expression or a comparison. -/
def condition : Nat → Frame → List Lexeme → Outcome (Reading × List Lexeme)
  | 0, _, ls => fail ls
  | n + 1, fr, ls =>
    match ls with
    | [] => fail ls
    | l :: rest =>
      match l.token with
      | .word w =>
        if w = "not" then do
          let (_, rest) ← condition n fr rest
          .ok (.closed "not_operator" ls rest, rest)
        else if w = "lambda" then do
          let rest ← parameters n false (.symbol ":") rest
          let (_, rest) ← expression n fr rest
          .ok (.closed "lambda" ls rest, rest)
        else
          match next? fr rest with
          | some (.symbol ":=", rest) => do
            let (_, rest) ← expression n fr rest
            .ok (.closed "named_expression" ls rest, rest)
          | _ => comparison n fr ls
      | _ => comparison n fr ls

/-- Operands with comparison operators between them, or a single operand. -/
def comparison : Nat → Frame → List Lexeme → Outcome (Reading × List Lexeme)
  | 0, _, ls => fail ls
  | n + 1, fr, ls => do
    let (r, rest) ← operands n fr ls
    let (compared, rest) ← comparisonRest n fr rest
    if compared.isEmpty then .ok (r, rest)
    else .ok (⟨.over "comparison_operator" ls rest (r.node :: compared), .value⟩, rest)

/-- The operands behind the operators of a comparison. -/
def comparisonRest : Nat → Frame → List Lexeme → Outcome (List Node × List Lexeme)
  | 0, _, ls => fail ls
  | n + 1, fr, ls =>
    match compareOp? fr ls with
    | none => .ok ([], ls)
    | some rest => do
      let (r, ls) ← operands n fr rest
      let (more, ls) ← comparisonRest n fr ls
      .ok (r.node :: more, ls)

/-- Operands with the other binary operators between them. -/
def operands : Nat → Frame → List Lexeme → Outcome (Reading × List Lexeme)
  | 0, _, ls => fail ls
  | n + 1, fr, ls => do
    let (r, rest) ← operand n fr ls
    match next? fr rest with
    | some (.symbol s, more) =>
      if isBinaryOperator s then do
        let (_, rest) ← operands n fr more
        .ok (.closed "binary_operator" ls rest, rest)
      else .ok (r, rest)
    | _ => .ok (r, rest)

/-- An operand with its signs. -/
def operand : Nat → Frame → List Lexeme → Outcome (Reading × List Lexeme)
  | 0, _, ls => fail ls
  | n + 1, fr, ls =>
    match ls with
    | [] => fail ls
    | l :: rest =>
      match l.token with
      | .symbol s =>
        if s = "+" || s = "-" || s = "~" then do
          let (_, rest) ← operand n fr rest
          .ok (.closed "unary_operator" ls rest, rest)
        else trailed n fr ls
      | .word w =>
        if w = "await" && startsOperand ((next? fr rest).map (·.1)) then do
          let (_, rest) ← operand n fr rest
          .ok (.closed "await" ls rest, rest)
        else trailed n fr ls
      | _ => trailed n fr ls

/-- An atom with the attributes, calls and subscripts behind it. -/
def trailed : Nat → Frame → List Lexeme → Outcome (Reading × List Lexeme)
  | 0, _, ls => fail ls
  | n + 1, fr, ls => do
    let (r, rest) ← atom n fr ls
    trailers n fr ls r rest

/-- The attributes, calls and subscripts behind an expression that starts with the first lexemes
given. -/
def trailers :
    Nat → Frame → List Lexeme → Reading → List Lexeme → Outcome (Reading × List Lexeme)
  | 0, _, _, _, ls => fail ls
  | n + 1, fr, whole, r, ls =>
    match next? fr ls with
    | some (.symbol s, rest) =>
      if s = "." then do
        let (name, rest) ← expectWord rest
        let parts := [r.node.as "object", name.as "attribute"]
        trailers n fr whole ⟨.over "attribute" whole rest parts, .reference⟩ rest
      else if s = "(" then do
        let (node, rest) ← arguments n ls rest
        let parts := [r.node.as "function", node.as "arguments"]
        trailers n fr whole ⟨.over "call" whole rest parts, .value⟩ rest
      else if s = "[" then do
        let rest ← subscripts n rest
        trailers n fr whole ⟨.closed "subscript" whole rest, .reference⟩ rest
      else .ok (r, ls)
    | _ => .ok (r, ls)

/-- A name, a literal or a display. -/
def atom : Nat → Frame → List Lexeme → Outcome (Reading × List Lexeme)
  | 0, _, ls => fail ls
  | n + 1, fr, ls =>
    match ls with
    | [] => fail ls
    | l :: rest =>
      match l.token with
      | .word w =>
        if isConstant w then .ok (.closed w.toLower ls rest, rest)
        else .ok (⟨.closed "identifier" ls rest, .name⟩, rest)
      | .number => .ok (.closed "integer" ls rest, rest)
      | .literal _ => strings n fr ls [.closed "string" ls rest] rest
      | .formatOpen => do
        let rest ← fields n .formatClose rest
        strings n fr ls [.closed "string" ls rest] rest
      | .symbol s =>
        if s = "(" then parenthesized n ls rest
        else if s = "[" then bracketed n ls rest
        else if s = "\x7b" then braced n ls rest
        else if s = "..." then .ok (.closed "ellipsis" ls rest, rest)
        else fail ls
      | _ => fail ls

/-- The literals adjacent to those given, which start with the first lexemes given. A single literal
is left as it is. -/
def strings : Nat → Frame → List Lexeme → List Node → List Lexeme → Outcome (Reading × List Lexeme)
  | 0, _, _, _, ls => fail ls
  | n + 1, fr, whole, before, ls =>
    match next? fr ls with
    | some (.literal _, rest) => strings n fr whole (before ++ [.closed "string" ls rest]) rest
    | some (.formatOpen, rest) => do
      let rest ← fields n .formatClose rest
      strings n fr whole (before ++ [.closed "string" ls rest]) rest
    | _ =>
      match before with
      | [single] => .ok (⟨single, .value⟩, ls)
      | _ => .ok (⟨.over "concatenated_string" whole ls before, .value⟩, ls)

/-- The replacement fields of a formatted literal or of a format, up to its end. -/
def fields : Nat → Token → List Lexeme → Outcome (List Lexeme)
  | 0, _, ls => fail ls
  | n + 1, close, ls =>
    match ls with
    | [] => fail ls
    | l :: rest =>
      if l.token = close then .ok rest
      else if l.token = .fieldOpen then do
        let ((rs, trailing), ls) ← yielded n .inner rest
        if !Reading.listed trailing rs then fail rest
        let ls := if startsWith (.symbol "=") ls then ls.tail else ls
        let ls := if startsWith .conversion ls then ls.tail else ls
        let ls ←
          if startsWith .format ls then fields n .fieldClose ls.tail else expect .fieldClose ls
        fields n close ls
      else fail ls

/-- The word `yield` with what it hands on, or expressions and targets behind stars with commas
between them, and whether a comma ends them. -/
def yielded : Nat → Frame → List Lexeme → Outcome ((List Reading × Bool) × List Lexeme)
  | 0, _, ls => fail ls
  | n + 1, fr, ls =>
    if startsWith (.word "yield") ls then do
      let rest ← yieldRest n fr ls.tail
      .ok (([.closed "yield" ls rest], false), rest)
    else starredList n fr ls

/-- Expressions and targets behind stars with commas between them, and whether a comma ends
them. -/
def starredList : Nat → Frame → List Lexeme → Outcome ((List Reading × Bool) × List Lexeme)
  | 0, _, ls => fail ls
  | n + 1, fr, ls => do
    let (r, ls) ←
      if startsWith (.symbol "*") ls then do
        let (r, rest) ← trailed n fr ls.tail
        let r := r.starred ls rest
        if r.isTarget then .ok (r, rest) else fail rest
      else expression n fr ls
    match next? fr ls with
    | some (.symbol ",", rest) =>
      let t := (next? fr rest).map (·.1)
      if startsExpression t || t = some (.symbol "*") then do
        let ((more, trailing), ls) ← starredList n fr rest
        .ok ((r :: more, trailing), ls)
      else .ok (([r], true), rest)
    | _ => .ok (([r], false), ls)

/-- What the word `yield` hands on. -/
def yieldRest : Nat → Frame → List Lexeme → Outcome (List Lexeme)
  | 0, _, ls => fail ls
  | n + 1, fr, ls =>
    match next? fr ls with
    | some (.word "from", rest) => do
      let (_, ls) ← expression n fr rest
      .ok ls
    | some (t, _) =>
      if startsExpression (some t) then do
        let (_, ls) ← expressionList n fr ls
        .ok ls
      else .ok ls
    | none => .ok ls

/-- Expressions with commas between them, and whether a comma ends them. -/
def expressionList : Nat → Frame → List Lexeme → Outcome ((List Reading × Bool) × List Lexeme)
  | 0, _, ls => fail ls
  | n + 1, fr, ls => do
    let (r, ls) ← expression n fr ls
    match next? fr ls with
    | some (.symbol ",", rest) =>
      if startsExpression ((next? fr rest).map (·.1)) then do
        let ((more, trailing), ls) ← expressionList n fr rest
        .ok ((r :: more, trailing), ls)
      else .ok (([r], true), rest)
    | _ => .ok (([r], false), ls)

/-- An element of a display in brackets. -/
def element : Nat → List Lexeme → Outcome (Reading × List Lexeme)
  | 0, ls => fail ls
  | n + 1, ls =>
    if startsWith (.word "yield") ls then do
      let rest ← yieldRest n .inner ls.tail
      .ok (.closed "yield" ls rest, rest)
    else if startsWith (.symbol "*") ls then do
      let (r, rest) ← expression n .inner ls.tail
      .ok (r.starred ls rest, rest)
    else expression n .inner ls

/-- The further elements of a display, up to its closing bracket. -/
def elements : Nat → Token → List Lexeme → Outcome ((List Reading) × List Lexeme)
  | 0, _, ls => fail ls
  | n + 1, close, ls =>
    match ls with
    | [] => fail ls
    | l :: rest =>
      if l.token = close then .ok ([], rest)
      else if l.token = .symbol "," then
        if startsWith close rest then .ok ([], rest.tail)
        else do
          let (r, ls) ← element n rest
          let (more, ls) ← elements n close ls
          .ok (r :: more, ls)
      else fail ls

/-- A display in parentheses, or an expression in them, given the lexemes from the parenthesis on
and those behind it. -/
def parenthesized : Nat → List Lexeme → List Lexeme → Outcome (Reading × List Lexeme)
  | 0, _, ls => fail ls
  | n + 1, whole, ls =>
    if startsWith (.symbol ")") ls then .ok (.display "tuple" whole ls.tail [], ls.tail)
    else do
      let (r, ls) ← element n ls
      if startsWith (.symbol ")") ls then .ok (r.enclosed whole ls.tail, ls.tail)
      else if startsClause ls && !r.isSplat then do
        let ls ← clauses n ls
        let ls ← expect (.symbol ")") ls
        .ok (.closed "generator_expression" whole ls, ls)
      else do
        let (more, ls) ← elements n (.symbol ")") ls
        .ok (.display "tuple" whole ls (r :: more), ls)

/-- A display in square brackets, given the lexemes from the bracket on and those behind it. -/
def bracketed : Nat → List Lexeme → List Lexeme → Outcome (Reading × List Lexeme)
  | 0, _, ls => fail ls
  | n + 1, whole, ls =>
    if startsWith (.symbol "]") ls then .ok (.display "list" whole ls.tail [], ls.tail)
    else do
      let (r, ls) ← element n ls
      if startsClause ls && !r.isSplat then do
        let ls ← clauses n ls
        let ls ← expect (.symbol "]") ls
        .ok (.closed "list_comprehension" whole ls, ls)
      else do
        let (more, ls) ← elements n (.symbol "]") ls
        .ok (.display "list" whole ls (r :: more), ls)

/-- A display in braces: a mapping, a set or a comprehension of one, given the lexemes from the
brace on and those behind it. -/
def braced : Nat → List Lexeme → List Lexeme → Outcome (Reading × List Lexeme)
  | 0, _, ls => fail ls
  | n + 1, whole, ls =>
    if startsWith (.symbol "\x7d") ls then
      .ok (⟨.over "dictionary" whole ls.tail [], .value⟩, ls.tail)
    else if startsWith (.symbol ",") ls then do
      let ls ← expect (.symbol "\x7d") ls.tail
      .ok (⟨.over "dictionary" whole ls [], .value⟩, ls)
    else if startsWith (.symbol "**") ls then do
      let (entry, ls) ← splat n ls
      let (more, ls) ← entries n ls
      .ok (⟨.over "dictionary" whole ls (entry :: more), .value⟩, ls)
    else do
      let (r, rest) ← element n ls
      if startsWith (.symbol ":") rest && !r.isSplat then do
        let (value, rest) ← expression n .inner rest.tail
        if startsClause rest then do
          let rest ← clauses n rest
          let rest ← expect (.symbol "\x7d") rest
          .ok (.closed "dictionary_comprehension" whole rest, rest)
        else do
          let entry := .over "pair" ls rest [r.node.as "key", value.node.as "value"]
          let (more, rest) ← entries n rest
          .ok (⟨.over "dictionary" whole rest (entry :: more), .value⟩, rest)
      else if startsClause rest && !r.isSplat then do
        let rest ← clauses n rest
        let rest ← expect (.symbol "\x7d") rest
        .ok (.closed "set_comprehension" whole rest, rest)
      else do
        let (_, rest) ← elements n (.symbol "\x7d") rest
        .ok (.closed "set" whole rest, rest)

/-- A whole mapping among entries or arguments, from its stars on. -/
def splat : Nat → List Lexeme → Outcome (Node × List Lexeme)
  | 0, ls => fail ls
  | n + 1, ls => do
    let (r, rest) ← expression n .inner ls.tail
    .ok (.over "dictionary_splat" ls rest [r.node], rest)

/-- The further entries of a mapping display, up to its closing brace. -/
def entries : Nat → List Lexeme → Outcome (List Node × List Lexeme)
  | 0, ls => fail ls
  | n + 1, ls =>
    match ls with
    | [] => fail ls
    | l :: rest =>
      if l.token = .symbol "\x7d" then .ok ([], rest)
      else if l.token = .symbol "," then
        if startsWith (.symbol "\x7d") rest then .ok ([], rest.tail)
        else if startsWith (.symbol "**") rest then do
          let (entry, ls) ← splat n rest
          let (more, ls) ← entries n ls
          .ok (entry :: more, ls)
        else do
          let (key, ls) ← expression n .inner rest
          let ls ← expect (.symbol ":") ls
          let (value, ls) ← expression n .inner ls
          let entry := .over "pair" rest ls [key.node.as "key", value.node.as "value"]
          let (more, ls) ← entries n ls
          .ok (entry :: more, ls)
      else fail ls

/-- The clauses of a comprehension. -/
def clauses : Nat → List Lexeme → Outcome (List Lexeme)
  | 0, ls => fail ls
  | n + 1, ls =>
    if startsClause ls then do
      let ls := if startsWith (.word "async") ls then ls.tail else ls
      let ls ← targets n ls.tail
      let ls ← clauseItems n ls
      clauses n ls
    else if startsWith (.word "if") ls then do
      let (_, ls) ← expression n .clause ls.tail
      clauses n ls
    else .ok ls

/-- What a clause of a comprehension runs over. -/
def clauseItems : Nat → List Lexeme → Outcome (List Lexeme)
  | 0, ls => fail ls
  | n + 1, ls => do
    let (_, ls) ← expression n .clause ls
    if startsWith (.symbol ",") ls then
      if startsOperand (head? ls.tail) && !startsClause ls.tail then clauseItems n ls.tail
      else .ok ls.tail
    else .ok ls

/-- The targets of a loop or clause, up to the word `in`. -/
def targets : Nat → List Lexeme → Outcome (List Lexeme)
  | 0, ls => fail ls
  | n + 1, ls => do
    let starred := startsWith (.symbol "*") ls
    let (r, rest) ← trailed n .inner (if starred then ls.tail else ls)
    if !(if starred then r.starred ls rest else r).isTarget then fail ls
    else if startsWith (.word "in") rest then .ok rest.tail
    else do
      let rest ← expect (.symbol ",") rest
      if startsWith (.word "in") rest then .ok rest.tail else targets n rest

/-- The arguments of a call, given the lexemes from the opening parenthesis on and those behind
it. -/
def arguments : Nat → List Lexeme → List Lexeme → Outcome (Node × List Lexeme)
  | 0, _, ls => fail ls
  | n + 1, whole, ls =>
    if startsWith (.symbol ")") ls then .ok (.over "argument_list" whole ls.tail [], ls.tail)
    else if startsWith (.symbol ",") ls then do
      let ls ← expect (.symbol ")") ls.tail
      .ok (.over "argument_list" whole ls [], ls)
    else do
      let (first, rest) ← argument n ls
      if startsClause rest && !isKeywordArgument first && !startsWith (.symbol "*") ls then do
        let ls ← clauses n rest
        let ls ← expect (.symbol ")") ls
        .ok (.closed "generator_expression" whole ls, ls)
      else do
        let (more, ls) ← argumentsRest n rest
        .ok (.over "argument_list" whole ls (first :: more), ls)

/-- The further arguments of a call, up to the closing parenthesis. -/
def argumentsRest : Nat → List Lexeme → Outcome (List Node × List Lexeme)
  | 0, ls => fail ls
  | n + 1, ls =>
    match ls with
    | [] => fail ls
    | l :: rest =>
      if l.token = .symbol ")" then .ok ([], rest)
      else if l.token = .symbol "," then
        if startsWith (.symbol ")") rest then .ok ([], rest.tail)
        else do
          let (next, ls) ← argument n rest
          let (more, ls) ← argumentsRest n ls
          .ok (next :: more, ls)
      else fail ls

/-- One argument of a call: by position, by keyword or a whole mapping. -/
def argument : Nat → List Lexeme → Outcome (Node × List Lexeme)
  | 0, ls => fail ls
  | n + 1, ls =>
    match ls with
    | [] => fail ls
    | l :: rest =>
      match l.token with
      | .symbol s =>
        if s = "**" then splat n ls
        else do
          let (r, ls) ← element n ls
          .ok (r.element, ls)
      | .word w =>
        if startsWith (.symbol "=") rest && !isConstant w && w ≠ "not" && w ≠ "lambda" then do
          let (name, rest) ← expectWord ls
          let (r, rest) ← expression n .inner rest.tail
          .ok (.over "keyword_argument" ls rest [name.as "name", r.node.as "value"], rest)
        else do
          let (r, ls) ← expression n .inner ls
          .ok (r.node, ls)
      | _ => do
        let (r, ls) ← expression n .inner ls
        .ok (r.node, ls)

/-- The subscripts behind an opening bracket, up to the closing one. -/
def subscripts : Nat → List Lexeme → Outcome (List Lexeme)
  | 0, ls => fail ls
  | n + 1, ls => do
    let ls ←
      if startsWith (.symbol ":") ls then pure ls
      else do
        let (_, ls) ← element n ls
        pure ls
    let ls ← sliceRest n 2 ls
    if startsWith (.symbol "]") ls then .ok ls.tail
    else do
      let ls ← expect (.symbol ",") ls
      if startsWith (.symbol "]") ls then .ok ls.tail else subscripts n ls

/-- At most so many further parts of a slice, each behind a colon and each possibly empty. -/
def sliceRest : Nat → Nat → List Lexeme → Outcome (List Lexeme)
  | 0, _, ls => fail ls
  | n + 1, parts, ls =>
    if parts ≠ 0 && startsWith (.symbol ":") ls then
      if startsExpression (head? ls.tail) then do
        let (_, ls) ← expression n .inner ls.tail
        sliceRest n (parts - 1) ls
      else sliceRest n (parts - 1) ls.tail
    else .ok ls

/-- The parameters of a function, up to the token that closes them. Those of a named function can
be annotated. -/
def parameters : Nat → Bool → Token → List Lexeme → Outcome (List Lexeme)
  | 0, _, _, ls => fail ls
  | n + 1, annotated, close, ls =>
    if startsWith close ls then .ok ls.tail
    else do
      let ls ← parameter n annotated ls
      if startsWith close ls then .ok ls.tail
      else do
        let ls ← expect (.symbol ",") ls
        parameters n annotated close ls

/-- One parameter of a function. -/
def parameter : Nat → Bool → List Lexeme → Outcome (List Lexeme)
  | 0, _, ls => fail ls
  | n + 1, annotated, ls =>
    match ls with
    | [] => fail ls
    | l :: rest =>
      match l.token with
      | .word _ => do
        let ls ← parameterType n annotated rest
        parameterDefault n ls
      | .symbol "/" => .ok rest
      | .symbol "*" =>
        match expectWord rest with
        | .ok (_, ls) => parameterType n annotated ls
        | .error _ => .ok rest
      | .symbol "**" => do
        let (_, ls) ← expectWord rest
        parameterType n annotated ls
      | .symbol "(" => do
        let (r, ls) ← parenthesized n ls rest
        if r.isTarget then parameterDefault n ls else fail ls
      | _ => fail ls

/-- The annotation of a parameter, where it can have one. -/
def parameterType : Nat → Bool → List Lexeme → Outcome (List Lexeme)
  | 0, _, ls => fail ls
  | n + 1, annotated, ls =>
    if annotated && startsWith (.symbol ":") ls then annotation n .inner ls.tail else .ok ls

/-- The default value of a parameter, if it has one. -/
def parameterDefault : Nat → List Lexeme → Outcome (List Lexeme)
  | 0, ls => fail ls
  | n + 1, ls =>
    if startsWith (.symbol "=") ls then do
      let (_, ls) ← expression n .inner ls.tail
      .ok ls
    else .ok ls

/-- A type, possibly behind stars. -/
def annotation : Nat → Frame → List Lexeme → Outcome (List Lexeme)
  | 0, _, ls => fail ls
  | n + 1, fr, ls => do
    let starred := startsWith (.symbol "*") ls || startsWith (.symbol "**") ls
    let (_, ls) ← expression n fr (if starred then ls.tail else ls)
    .ok ls

end

end Descriptor.Script
