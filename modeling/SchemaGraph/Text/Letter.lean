import SchemaGraph.Text.Case

namespace SchemaGraph.Text

def isCased (c : Char) : Bool :=
  casedRanges.contains c

def isCaseIgnorable (c : Char) : Bool :=
  caseIgnorableRanges.contains c

def CaseRun.contains (run : CaseRun) (c : Char) : Bool :=
  run.first ≤ c.toNat && c.toNat ≤ run.last && (c.toNat - run.first) % run.step == 0

def lowerChar (c : Char) : Char :=
  match caseRuns.find? (·.contains c) with
  | some run => Char.ofNat (c.toNat + run.shift).toNat
  | none     => c

-- Lower-cases a text of which `before` holds what comes before it, the nearest first. A capital
-- sigma becomes the final form after a cased letter when no cased letter follows, characters that
-- case ignores being looked through; the dotted capital `İ` becomes `i` and a combining dot.
def lowerFrom (before : List Char) : List Char → List Char
  | []      => []
  | c :: cs =>
    let form :=
      if c = '\u03A3' then
        let final := nearestIsCased before && !nearestIsCased cs
        [if final then '\u03C2' else '\u03C3']
      else if c = '\u0130' then ['i', '\u0307']
      else [lowerChar c]
    form ++ lowerFrom (c :: before) cs
where
  nearestIsCased (cs : List Char) : Bool :=
    (cs.dropWhile isCaseIgnorable).head?.any isCased

def lower (s : String) : String :=
  String.ofList (lowerFrom [] s.toList)

def upperForms : List (Char × String) :=
  [('\u00DF', "SS"), ('\u0131', "I"), ('\u017F', "S"), ('\uFB00', "FF"), ('\uFB01', "FI"),
    ('\uFB02', "FL"), ('\uFB03', "FFI"), ('\uFB04', "FFL"), ('\uFB05', "ST"), ('\uFB06', "ST")]

def upperChar (c : Char) : List Char :=
  match upperForms.lookup c with
  | some form => form.toList
  | none      => [c.toUpper]

def upperAscii (s : String) : String :=
  String.ofList (s.toList.flatMap upperChar)

-- Whether `c` is the ASCII letter `letter` in some case. Besides the two ASCII forms, `k` is also
-- the Kelvin sign, `s` the long s, and `i` the dotted capital and the dotless small letter.
def sameLetter (letter c : Char) : Bool :=
  c.toLower == letter.toLower ||
    match letter.toLower with
    | 'k' => c == '\u212A'
    | 's' => c == '\u017F'
    | 'i' => c == '\u0130' || c == '\u0131'
    | _   => false

end SchemaGraph.Text
