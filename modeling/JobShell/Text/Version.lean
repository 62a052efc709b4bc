import JobShell.Text.Decimal

/-!
# Version order

The order in which names with numbers in them are wanted: `a9` comes before
`a10`. A name is cut into stretches of other characters, each with the number
behind it. Endings such as `.tar.gz` only count if all else is equal.
-/

namespace JobShell.Text.Version

/-- The rank of a character outside of numbers. A tilde comes before
everything, letters come before other characters. -/
def rank (c : Char) : Int :=
  if c.isAlpha then c.toNat
  else if c = '~' then -2
  else c.toNat + 256

/-- The rank of the end of a stretch: the end of the name comes before a
number. -/
def endRank (rest : List Char) : Int := if rest = [] then -1 else 0

/-- The stretches of a name, each as the ranks of its characters, the rank of
its end, and the number behind it. An empty one stands at the end. `length`
bounds how many there are. -/
def stretches : (length : Nat) → List Char → List (List Int × Nat)
  | 0, _ => []
  | _, [] => [([endRank []], 0)]
  | length + 1, cs =>
    let (plain, rest) := cs.span fun c => !c.isDigit
    let (digits, behind) := rest.span Char.isDigit
    (plain.map rank ++ [endRank rest], natOfDigits digits) ::
      stretches length behind

/-- Compares names without a look at their endings. -/
def compareWhole (a b : List Char) : Ordering :=
  List.compareLex
    (fun (ranks, n) (ranks', n') => (List.compareLex compare ranks ranks').then (compare n n'))
    (stretches (a.length + 1) a) (stretches (b.length + 1) b)

/-- Whether a text consists of endings: a point, a letter, and more letters
and digits. -/
def areEndings : (inside : Bool) → List Char → Bool
  | _, [] => true
  | _, '.' :: c :: rest => (c.isAlpha || c = '~') && areEndings true rest
  | inside, c :: rest => inside && (c.isAlphanum || c = '~') && areEndings true rest

/-- A name without its endings. At least one character is left. -/
def withoutEndings : List Char → List Char
  | [] => []
  | c :: rest => c :: go rest
where
  go : List Char → List Char
    | [] => []
    | c :: rest => if areEndings false (c :: rest) then [] else c :: go rest

/-- The class of a name: nothing, `.`, `..`, hidden names, all others. -/
def nameClass : List Char → Nat
  | [] => 0
  | ['.'] => 1
  | ['.', '.'] => 2
  | '.' :: _ => 3
  | _ => 4

/-- Compares two names. -/
def compareNames (a b : String) : Ordering :=
  let a := a.toList
  let b := b.toList
  ((compare (nameClass a) (nameClass b)).then
    (compareWhole (withoutEndings a) (withoutEndings b))).then (compareWhole a b)

end JobShell.Text.Version
