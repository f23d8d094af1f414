import SeriesCalc.Session.Step

/-!
# Requests

A request is one line of JSON: the setup of a fresh workspace and the steps to run in it.
Its answer is one line of JSON too:

* `\x7b"steps": [...]\x7d`, one answer per step, when the setup is accepted;
* the dataset or variable error that refused the setup;
* `\x7b"error": "BadInput", ...\x7d` when the request or any of its steps is malformed;
* `\x7b"error": "panic", ...\x7d` when a step broke an invariant of the machine.

`Request.answer` is total: the nesting of the request bounds every recursion, so the length
of its text is enough fuel.
-/

namespace SeriesCalc

namespace Request

/-- The answer to a malformed request. -/
def badInput (message : String) : Json :=
  .obj [("error", .str "BadInput"), ("message", .str message)]

/-- The answer to a request that ended without answers. -/
def halted : Halt → Json
  | .badInput m => badInput m
  | .data e => .obj (Encode.dataError e)
  | .panic m => .obj [("error", .str "panic"), ("message", .str m)]

/-- Set up, then run the steps in order. -/
def run (fuel : Nat) (j : Json) : Except Halt Json := do
  let s ← Session.setup fuel j
  let steps ← match j.get? "steps" with
    | some (.arr xs) => pure xs
    | none => pure []
    | some _ => Halt.refuse "steps must be a list"
  let (_, answers) ← steps.foldlM (fun (s, acc) st => do
    let (s, a) ← s.answer fuel st
    return (s, a :: acc)) (s, [])
  return .obj [("steps", .arr answers.reverse)]

/-- The answer line to a request line. -/
def answer (line : String) : String :=
  match Json.parse line with
  | .error e => (badInput ("bad JSON: " ++ e)).render
  | .ok j =>
    match run (line.length + 2) j with
    | .ok out => out.render
    | .error h => (halted h).render

end Request

end SeriesCalc
