import SchemaGraph.Clause.Basic
import SchemaGraph.Log.Level
import SchemaGraph.Text.Quoted

namespace SchemaGraph

inductive Event
  | unterminatedStatement (name : String) (offset : Nat)
  | unnamedStatement (offset : Nat)
  | redefinedTable (name : String)
  | droppedClause (table : String) (fault : Clause.Fault) (text : String)
  | danglingForeignKey (table : String) (key : ForeignKey)
  | noExplicitRelationship (tableCount : Nat)
  | inferredLink (link : Link)
  | unknownEndpoint (relationship missing : String)
  | unplacedEdge (relationship : String)
  | emptySource
  | unreadableSource
  | parsed (tableCount relationshipCount : Nat)
  | served (host : String) (port : Int)
  | started
  | stopped
  | answered (tableCount relationshipCount : Nat)
  deriving DecidableEq, Repr

namespace Event

def level : Event → Level
  | unterminatedStatement .. => .warning
  | unnamedStatement ..      => .warning
  | redefinedTable ..        => .warning
  | droppedClause ..         => .debug
  | danglingForeignKey ..    => .warning
  | noExplicitRelationship _ => .debug
  | inferredLink _           => .info
  | unknownEndpoint ..       => .warning
  | unplacedEdge _           => .warning
  | emptySource              => .debug
  | unreadableSource         => .error
  | parsed ..                => .debug
  | served ..                => .info
  | started                  => .info
  | stopped                  => .info
  | answered ..              => .info

def origin : Event → String
  | unterminatedStatement .. => "ddl_flowchart.extractor"
  | unnamedStatement ..      => "ddl_flowchart.extractor"
  | redefinedTable ..        => "ddl_flowchart.parser"
  | droppedClause ..         => "ddl_flowchart.clauses"
  | danglingForeignKey ..    => "ddl_flowchart.relationships"
  | noExplicitRelationship _ => "ddl_flowchart.relationships"
  | inferredLink _           => "ddl_flowchart.relationships"
  | unknownEndpoint ..       => "ddl_flowchart.diagram"
  | unplacedEdge _           => "ddl_flowchart.flow"
  | emptySource              => "ddl_flowchart.parser"
  | unreadableSource         => "ddl_flowchart.parser"
  | parsed ..                => "ddl_flowchart.parser"
  | served ..                => "ddl_flowchart.cli.commands"
  | started                  => "ddl_flowchart.web.app"
  | stopped                  => "ddl_flowchart.web.app"
  | answered ..              => "ddl_flowchart.web.routes.diagram"

def message : Event → String
  | unterminatedStatement name offset =>
    s!"Skipping unterminated CREATE TABLE {Text.quoted name} at offset {offset}"
  | unnamedStatement offset           =>
    s!"Skipping CREATE TABLE with empty name at offset {offset}"
  | redefinedTable name               =>
    s!"Table {name} defined more than once, keeping the last definition"
  | droppedClause table fault text    =>
    s!"Dropped clause in {table}: {fault.message}: {Text.quoted text}"
  | danglingForeignKey table key      =>
    s!"Referenced table {key.refTable} not found for FK {table}.{key.column}"
  | noExplicitRelationship n          =>
    s!"No explicit relationships among {n} tables, trying naming convention"
  | inferredLink link                 =>
    s!"Inferred FK by naming convention: {link.sourceTable}.{link.sourceColumn} -> " ++
      s!"{link.targetTable}.{link.targetColumn}"
  | unknownEndpoint id missing        =>
    s!"Skipping relationship {id}: missing table {missing}"
  | unplacedEdge id                   => s!"Skipping edge {id}: node not found"
  | emptySource                       => "Empty SQL provided"
  | unreadableSource                  => "Error parsing SQL"
  | parsed tables relationships       =>
    s!"Parsed {tables} tables and {relationships} relationships"
  | served host port                  => s!"Serving ddl-flowchart API on {host}:{port}"
  | started                           => "ddl-flowchart API starting up..."
  | stopped                           => "ddl-flowchart API shutting down..."
  | answered tables relationships     =>
    s!"Parsed {tables} tables, {relationships} relationships"

end Event
end SchemaGraph
