import SchemaGraph.Identifier
import SchemaGraph.Text.Digit

namespace SchemaGraph.Clause

open Pattern

inductive Part
  | name
  | declaredType
  | tail
  | columns
  | refTable
  | refColumns
  deriving DecidableEq

def constraintName : Pattern Part :=
  opt (keyword "CONSTRAINT" ++ gap ++ Identifier.part ++ gap)

def columnList (label : Part) : Pattern Part :=
  only '(' ++ group label (run (· != ')')) ++ only ')'

def references : Pattern Part :=
  keyword "REFERENCES" ++ gap ++ group .refTable Identifier.qualified
    ++ opt (blanks ++ columnList .refColumns)

def primaryKeyPattern : Pattern Part :=
  constraintName ++ keyword "PRIMARY" ++ gap ++ keyword "KEY"
    ++ opt (gap ++ (keyword "CLUSTERED" <|> keyword "NONCLUSTERED"))
    ++ blanks ++ columnList .columns

def foreignKeyPattern : Pattern Part :=
  constraintName ++ keyword "FOREIGN" ++ gap ++ keyword "KEY" ++ blanks ++ columnList .columns
    ++ blanks ++ references

-- An index over a list. A digit or a single quote in the parentheses means that a column with such
-- a name has a type with arguments.
def indexPattern : Pattern Part :=
  opt (keyword "UNIQUE" ++ gap) ++ (keyword "INDEX" <|> keyword "KEY")
    ++ opt (gap ++ Identifier.part) ++ blanks ++ only '('
    ++ notAhead (blanks ++ char fun c => Text.isDigit c || c == '\'')

def otherConstraintPattern : Pattern Part :=
  (constraintName ++ (keyword "UNIQUE" <|> keyword "CHECK" <|> keyword "EXCLUDE") ++ wordEdge)
    <|> (keyword "CONSTRAINT" ++ wordEdge)
    <|> ((keyword "FULLTEXT" <|> keyword "SPATIAL") ++ gap ++ (keyword "INDEX" <|> keyword "KEY")
      ++ wordEdge)
    <|> indexPattern
    <|> (keyword "PRIMARY" ++ gap ++ keyword "KEY" ++ wordEdge)
    <|> (keyword "FOREIGN" ++ gap ++ keyword "KEY" ++ wordEdge)

def columnPattern : Pattern Part :=
  group .name Identifier.part ++ gap
    ++ group .declaredType (many fun c => !Text.isBlank c && c != '(' && c != ',')
    ++ opt (blanks ++ only '(' ++ run (· != ')') ++ only ')')
    ++ group .tail (run fun _ => true) ++ textEnd

def inlinePrimaryKeyPattern : Pattern Part :=
  wordEdge ++ keyword "PRIMARY" ++ gap ++ keyword "KEY" ++ wordEdge

def inlineReferencePattern : Pattern Part :=
  wordEdge ++ references

end SchemaGraph.Clause
