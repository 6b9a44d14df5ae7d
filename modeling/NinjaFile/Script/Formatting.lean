import NinjaFile.Rendering
import NinjaFile.Script.Parameter

/-!
# Formatting

What a formatter makes of a value: the lines of a statement, or the text of a file.
-/

namespace NinjaFile.Script

namespace Formatter

/-- The mark in front of the lines of a block, which is looked up when it is needed. -/
def mark (formatter : Value) : Action Value := formatter.member "indent"

def linesOf (formatter : Value) (statement : Action Statement) : Action Value := do
  let statement ← statement
  let lines ← printer.lines (← mark formatter) statement
  return .list (lines.map .text)

/-- The statements of a file; a lazy source is ended after all of them have been read. -/
def statementsOf (v : Value) : Action (List Statement) :=
  match v with
  | .source id => do
      let items ← Program.ofExcept (← id.takeItems)
      let statements ← printer.statements items
      id.close
      return statements
  | v => do printer.statements (← v.iterate)

def fileText (formatter v : Value) : Action Value := do
  let statements ← statementsOf v
  return .text (← printer.fileText (← mark formatter) statements)

def methods (formatter : Value) : List Callable :=
  let unary := Callable.unary formatter.typeName
  [unary "format_document" "statements" (fileText formatter),
    unary "format_statement" "statement" fun v => linesOf formatter (printer.statement v),
    unary "format_rule" "rule" fun v => linesOf formatter (printer.ruleOf v),
    unary "format_pool" "pool" fun v => linesOf formatter (printer.poolOf v),
    unary "format_build" "build" fun v => linesOf formatter (printer.edgeOf v)]

end Formatter

end NinjaFile.Script
