import SchemaGraph.Schema.Basic

namespace SchemaGraph

namespace Link

def plainId (link : Link) : String :=
  s!"{link.sourceTable}_{link.sourceColumn}_to_{link.targetTable}_{link.targetColumn}"

def variant (base : String) : Nat → String
  | 0     => base
  | n + 1 => s!"{base}_{n + 2}"

-- The first variant from the `n`th on that is not used. As many tries as there are used names are
-- enough, since variants differ from one another.
def freshVariant (used : List String) (base : String) : (tries : Nat) → (n : Nat) → Nat
  | 0,         n => n
  | tries + 1, n =>
    if used.contains (variant base n) then freshVariant used base tries (n + 1) else n

def freshId (used : List String) (base : String) : String :=
  variant base (freshVariant used base used.length 0)

end Link

namespace Relationship

def ofLink (link : Link) : Relationship :=
  { link with id := link.plainId, kind := oneToMany }

def claimId (used : List String) (rel : Relationship) : Relationship × List String :=
  let id := Link.freshId used rel.id
  ({ rel with id }, id :: used)

-- One relationship for each link. The first of several links with the same plain id keeps it, the
-- others get the first number that makes theirs new.
def ofDistinctLinks (used : List String) : List Link → List Relationship
  | []            => []
  | link :: links =>
    let claimed := (ofLink link).claimId used
    claimed.1 :: ofDistinctLinks claimed.2 links

def ofLinks (links : List Link) : List Relationship :=
  ofDistinctLinks [] links.eraseDups

end Relationship

end SchemaGraph
