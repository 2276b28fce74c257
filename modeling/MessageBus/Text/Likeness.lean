import MessageBus.Text

/-!
# How alike two texts are

The longest block that two texts share is matched first, then what stands before it in both and what
stands behind it in both, and so on. Two texts are as alike as the share of their code points that is
matched. `Text.closest` picks the texts that are most alike to a given one.
-/

namespace MessageBus.Text

def sharedHead : Text → Text → Nat
  | c :: t, d :: u => if c = d then sharedHead t u + 1 else 0
  | _, _ => 0

/-- A block that two texts share: where it starts in each of them, and its length. -/
structure Block where
  left : Nat
  right : Nat
  length : Nat

/-- The longest block that starts at place `i` of the first text, the first one in the second text. -/
def blockAt (i : Nat) (t : Text) : (j : Nat) → Text → Block
  | j, [] => ⟨i, j, 0⟩
  | j, d :: u =>
    let here := sharedHead t (d :: u)
    let later := blockAt i t (j + 1) u
    if here < later.length then later else ⟨i, j, here⟩

/-- The longest block of two texts, the first one in the first text. -/
def longestBlock (u : Text) : (i : Nat) → Text → Block
  | i, [] => ⟨i, 0, 0⟩
  | i, c :: t =>
    let here := blockAt i (c :: t) 0 u
    let later := longestBlock u (i + 1) t
    if here.length < later.length then later else here

/-- How many code points of two texts are matched; `fuel` exceeds the length of the first one. -/
def matched : (fuel : Nat) → Text → Text → Nat
  | 0, _, _ => 0
  | fuel + 1, t, u =>
    let block := longestBlock u 0 t
    if block.length = 0 then 0
    else
      block.length + matched fuel (t.take block.left) (u.take block.right) +
        matched fuel (t.drop (block.left + block.length)) (u.drop (block.right + block.length))

def likeness (t u : Text) : Rat :=
  if t.isEmpty && u.isEmpty then 1 else mkRat (2 * matched (t.length + 1) t u) (t.length + u.length)

/-- Whether a text comes before another one in the order of code points, or is the same. -/
def precedes : Text → Text → Bool
  | [], _ => true
  | _ :: _, [] => false
  | c :: t, d :: u => c.val < d.val || (c.val = d.val && precedes t u)

/-- The three texts most alike to a text, of those that are alike by three fifths at least, in the order
of code points. -/
def closest (t : Text) (texts : List Text) : List Text :=
  let scored := (texts.map fun u => (likeness u t, u)).filter fun s => decide (mkRat 3 5 ≤ s.1)
  let ranked := scored.mergeSort fun a b => b.1 < a.1 || (a.1 = b.1 && precedes b.2 a.2)
  ((ranked.take 3).map (·.2)).mergeSort precedes

end MessageBus.Text
