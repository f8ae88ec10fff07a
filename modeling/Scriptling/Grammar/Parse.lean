import Scriptling.Grammar.Automaton
import Scriptling.Grammar.SyntaxError

/-!
# Parsing

The parser keeps a stack of the phrases it has recognised and the tokens not yet read.
In each step it reads a token onto the stack or replaces the phrases of a finished rule
by the phrase of its left side (`Config.step`); the automaton says which. A phrase
carries the value that its rules built, so the tree is ready when the input is.

Every step looks only at the top of the stack and at one token. Taking a rule's phrases
off the stack compares their symbols with the rule (`collect`), so that what is built is
right whatever the automaton says; the automaton decides only when the parser goes on
and when it gives up.

Where no step is possible and the program is not complete, the next token is an error.
The terminals that could have been read instead are those that the automaton comes to
read from the states on the stack (`Automaton.canRead`).
-/

namespace Scriptling

/-- The automaton that steers the parser. It is closed to unfolding: only a closed check by
the kernel is meant to compute it. -/
@[irreducible]
def automaton : Automaton := .ofGrammar

/-- A recognised phrase. -/
structure Phrase where
  /-- the state reached with it -/
  state : Nat
  /-- what was recognised -/
  symbol : Symbol
  /-- what it stands for -/
  value : symbol.Value
  /-- where it stands -/
  place : Extent

/-- The phrases recognised so far, the last one first. -/
abbrev Stack := List Phrase

/-- The state of the parser with this stack. -/
def Stack.state : Stack → Nat
  | [] => 0
  | p :: _ => p.state

/-- Takes the phrases of a row of symbols off the stack, with their place; nothing if
other phrases lie there. -/
def Stack.collect : (row : List Symbol) → Stack → Option (Values row × Extent × Stack)
  | [], stack => some ((), none, stack)
  | s :: row, stack =>
    match collect row stack with
    | some (vs, place, p :: stack) =>
      if h : p.symbol = s then some ((h ▸ p.value, vs), p.place.join place, stack) else none
    | _ => none

/-- The state of the whole parser. -/
structure Config where
  /-- what was recognised -/
  stack : Stack
  /-- what is still to be read -/
  rest : List Placed

namespace Config

/-- What the parser sees ahead. -/
def ahead (c : Config) : Lookahead :=
  c.rest.head?.map (·.token.terminal)

/-- Reads the next token, if the automaton allows it. -/
def read? (c : Config) : Option Config :=
  match c.rest with
  | [] => none
  | t :: rest =>
    let s := Symbol.terminal t.token.terminal
    ((automaton.state c.stack.state).target? s).map fun q =>
      ⟨⟨q, s, t.token.payload, some t.span⟩ :: c.stack, rest⟩

/-- Replaces the phrases of a finished rule, if the automaton finds one. -/
def reduce? (c : Config) : Option Config := do
  let r ← (automaton.state c.stack.state).finished? c.ahead
  let (vs, place, below) ← c.stack.collect r.rhs
  let s := Symbol.nonterminal r.lhs
  let q ← (automaton.state below.state).target? s
  return ⟨⟨q, s, r.build place.span vs, place⟩ :: below, c.rest⟩

/-- One step of the parser. -/
def step (c : Config) : Option Config :=
  c.read? <|> c.reduce?

/-- Goes on as long as there is a step, and at most `fuel` steps. -/
def run : (fuel : Nat) → Config → Config
  | 0, c => c
  | fuel + 1, c =>
    match c.step with
    | none => c
    | some c => run fuel c

/-- The program, if all is read and nothing but a program was recognised. -/
def program? : Config → Option Program
  | ⟨[⟨_, .nonterminal .program, p, _⟩], []⟩ => some p
  | _ => none

end Config

/-- Whether an automaton comes to read a token of class `t` when these states lie on the
stack, the last one first. -/
def Automaton.canRead (a : Automaton) (t : Terminal) :
    (fuel : Nat) → (states : List Nat) → Bool
  | 0, _ => false
  | fuel + 1, states =>
    let q := a.state (states.headD 0)
    match q.target? (.terminal t) with
    | some _ => true
    | none =>
      match q.finished? (some t) with
      | none => false
      | some r =>
        let below := states.drop r.rhs.length
        match (a.state (below.headD 0)).target? (.nonterminal r.lhs) with
        | none => false
        | some q => a.canRead t fuel (q :: below)

namespace Config

/-- The terminals that the parser could have read. -/
def expected (c : Config) : List Terminal :=
  let states := c.stack.map (·.state)
  Terminal.all.filter fun t => automaton.canRead t (16 * (states.length + 2)) states

/-- The error of a parser that cannot go on. `stop` is where the last token of the whole
input stops. -/
def obstacle (c : Config) (stop : Nat) : SyntaxError :=
  match c.rest, c.stack with
  | [], _ => ⟨.endOfInput stop, c.expected⟩
  | t :: _, [⟨_, .nonterminal .program, _, _⟩] => ⟨.extra t, []⟩
  | t :: _, _ => ⟨.token t, c.expected⟩

end Config

/-- The program that a row of tokens spells. -/
def Program.ofTokens (tokens : List Placed) : Except SyntaxError Program :=
  let c := Config.run (32 * (tokens.length + 1)) ⟨[], tokens⟩
  match c.program? with
  | some p => .ok p
  | none => .error (c.obstacle ((tokens.getLast?.map (·.span.stop)).getD 0))

end Scriptling
