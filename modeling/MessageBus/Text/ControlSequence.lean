import MessageBus.Text

/-!
# Control sequences

A control sequence tells a terminal what to do: how to show what follows, or where to go on. It is an
escape and a bracket, then parameters, then intermediate code points, and a final one, each kind from a
range of its own. A text that is printed elsewhere than to a terminal is printed without them.
-/

namespace MessageBus.Text

/-- How far a control sequence has been read: up to its escape, or into its parameters or the intermediate
code points behind them. -/
inductive ControlPart where
  | escape
  | parameters
  | intermediates
deriving DecidableEq

/-- What becomes of a control sequence by one code point more. -/
inductive ControlStep where
  | more (part : ControlPart)
  | complete
  | broken
deriving DecidableEq

namespace ControlPart

/-- What a code point behind the intermediate ones makes of a sequence. -/
def close (c : CodePoint) : ControlStep :=
  if 0x20 ≤ c.val ∧ c.val ≤ 0x2F then .more .intermediates
  else if 0x40 ≤ c.val ∧ c.val ≤ 0x7E then .complete
  else .broken

/-- What a code point makes of a sequence that has been read so far. -/
def step : ControlPart → CodePoint → ControlStep
  | .escape, c => if c = '[' then .more .parameters else .broken
  | .parameters, c => if 0x30 ≤ c.val ∧ c.val ≤ 0x3F then .more .parameters else close c
  | .intermediates, c => close c

end ControlPart

/-- A text without control sequences. The part of one that was read before it is `held`, the last code
point first, since it stays when the sequence breaks off. -/
def withoutControlsFrom : Option ControlPart → (held : Text) → Text → Text
  | _, held, [] => held.reverse
  | none, held, c :: rest =>
    if c = '\x1b' then withoutControlsFrom (some .escape) [c] rest
    else c :: withoutControlsFrom none held rest
  | some part, held, c :: rest =>
    match part.step c with
    | .more part => withoutControlsFrom (some part) (c :: held) rest
    | .complete => withoutControlsFrom none [] rest
    | .broken =>
      if c = '\x1b' then held.reverse ++ withoutControlsFrom (some .escape) [c] rest
      else held.reverse ++ c :: withoutControlsFrom none [] rest

def withoutControls (t : Text) : Text := withoutControlsFrom none [] t

end MessageBus.Text
