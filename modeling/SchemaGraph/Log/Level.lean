namespace SchemaGraph

inductive Level
  | debug
  | info
  | warning
  | error
  deriving DecidableEq, Repr

namespace Level

def name : Level → String
  | debug   => "DEBUG"
  | info    => "INFO"
  | warning => "WARNING"
  | error   => "ERROR"

def rank : Level → Nat
  | debug   => 0
  | info    => 1
  | warning => 2
  | error   => 3

end Level

end SchemaGraph
