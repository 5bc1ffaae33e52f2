/-!
# File patterns

* `Glob.Token` is what a pattern is made of, `Glob.parse` reads a pattern.
* `Glob.Fault` says why a text is no pattern, `Glob.Fault.message` in words.
-/

namespace LintHub.Glob

/-- A part of a pattern. Characters stand for their UTF-8 bytes. -/
inductive Token where
  | literal (c : Char)
  /-- One byte. -/
  | any
  /-- Any bytes, slashes too. -/
  | star
  /-- Any directories in front, or none. -/
  | anywhere
  /-- Anything below. -/
  | under
  /-- A slash, or any directories between two. -/
  | between
  /-- One byte of ranges of characters, or one outside them. -/
  | set (negated : Bool) (ranges : List (Char × Char))
  /-- One of several patterns. -/
  | choice (branches : List (List Token))
deriving Inhabited

inductive Fault where
  | openSet
  | badRange (low high : Char)
  | strayBrace
  | openBrace
  | danglingEscape
deriving DecidableEq, Inhabited

def Fault.message : Fault → String
  | openSet => "unclosed character class; missing ']'"
  | badRange low high => "invalid range; '" ++ low.toString ++ "' > '" ++ high.toString ++ "'"
  | strayBrace => "unopened alternate group; missing '\x7b' (maybe escape '\x7d' with '[\x7d]'?)"
  | openBrace => "unclosed alternate group; missing '\x7d' (maybe escape '\x7b' with '[\x7b]'?)"
  | danglingEscape => "dangling '\\'"

/-! ## Character sets -/

/-- Where the reading of a set stands: its ranges in reverse, whether it is at its first character, and whether a
hyphen waits for the end of a range. -/
structure SetState where
  ranges : List (Char × Char)
  first : Bool
  pending : Bool

def extendRange (c : Char) : List (Char × Char) → Except Fault (List (Char × Char))
  | [] => .ok [(c, c)]
  | (low, _) :: rest => if c < low then .error (.badRange low c) else .ok ((low, c) :: rest)

def takeSetChar (st : SetState) (c : Char) : Except Fault SetState :=
  if c = '-' && st.first then .ok ⟨('-', '-') :: st.ranges, false, false⟩
  else if c = '-' && !st.pending then .ok ⟨st.ranges, false, true⟩
  else if st.pending then (extendRange c st.ranges).map fun ranges => ⟨ranges, false, false⟩
  else .ok ⟨(c, c) :: st.ranges, false, false⟩

/-- The ranges of a set up to its closing bracket, and what follows. A bracket in first place is a character, a
hyphen in last place too. -/
def setTail (st : SetState) : List Char → Except Fault (List (Char × Char) × List Char)
  | [] => .error .openSet
  | c :: rest =>
    if c = ']' && !st.first then .ok ((if st.pending then ('-', '-') :: st.ranges else st.ranges).reverse, rest)
    else match takeSetChar st c with
      | .ok st => setTail st rest
      | .error e => .error e

theorem setTail_length {st : SetState} {s rest : List Char} {ranges : List (Char × Char)}
    (h : setTail st s = .ok (ranges, rest)) : rest.length < s.length := by
  induction s generalizing st with
  | nil => simp [setTail] at h
  | cons c s ih =>
    simp only [setTail] at h
    split at h
    · injection h with h
      simp only [Prod.mk.injEq] at h
      simp [h.2]
    · split at h
      · have := ih h
        simp only [List.length_cons]
        omega
      · cases h

/-- Whether a set lists what it leaves out, and its text after that mark. -/
def negation : List Char → Bool × List Char
  | '!' :: rest => (true, rest)
  | '^' :: rest => (true, rest)
  | s => (false, s)

theorem negation_length (s : List Char) : (negation s).2.length ≤ s.length := by
  unfold negation
  split <;> simp

def set? (s : List Char) : Except Fault (Token × List Char) :=
  match setTail ⟨[], true, false⟩ (negation s).2 with
  | .ok (ranges, rest) => .ok (.set (negation s).1 ranges, rest)
  | .error e => .error e

theorem set?_length {s rest : List Char} {t : Token} (h : set? s = .ok (t, rest)) : rest.length < s.length := by
  unfold set? at h
  split at h
  · rename_i ranges rest' hs
    injection h with h
    simp only [Prod.mk.injEq] at h
    have := setTail_length hs
    have := negation_length s
    rw [h.2] at *
    omega
  · cases h

/-! ## Patterns -/

/-- Where the reading of a pattern stands: the branches of each open brace, innermost first, with their tokens in
reverse; under them the tokens outside all braces; and the character read before. -/
structure State where
  /-- For each open brace, its branches: the current one first. -/
  groups : List (List (List Token))
  /-- The tokens outside all braces. -/
  outer : List Token
  last : Option Char

/-- The tokens of the current branch, in reverse. -/
def State.branch (st : State) : List Token :=
  match st.groups with
  | (current :: _) :: _ => current
  | _ => st.outer

def State.setBranch (st : State) (tokens : List Token) : State :=
  match st.groups with
  | (_ :: others) :: rest => { st with groups := (tokens :: others) :: rest }
  | _ => { st with outer := tokens }

def State.push (st : State) (t : Token) : State := st.setBranch (t :: st.branch)

/-- Two stars next to each other that mean no more than one. -/
def State.pushStars (st : State) : State := (st.push .star).push .star

def State.close (st : State) : Except Fault State :=
  match st.groups with
  | [] => .error .strayBrace
  | branches :: rest =>
    .ok (({ st with groups := rest } : State).push (.choice ((branches.map List.reverse).reverse)))

/-- Takes a comma: a new branch inside braces. -/
def State.comma (st : State) : State :=
  match st.groups with
  | [] => st.push (.literal ',')
  | branches :: rest => { st with groups := ([] :: branches) :: rest }

/-- Ends the current branch with `t` in place of its last token, unless that token says as much already. -/
def State.replaceLast (st : State) (t : Token) : State :=
  match st.branch with
  | [] => st.push t
  | .anywhere :: _ => st
  | .under :: _ => st
  | _ :: rest => st.setBranch (t :: rest)

/-- Takes two stars, of which the first follows `before`; `next` follows them. Answers the state after them and
whether a slash behind them is taken too. -/
def State.stars (st : State) (before next : Option Char) : State × Bool :=
  let inBraces := !st.groups.isEmpty
  if st.branch.isEmpty then
    if next == none || next == some '/' then (st.push .anywhere, next == some '/') else (st.pushStars, false)
  else if before != some '/' && (!inBraces || (before != some ',' && before != some '{')) then (st.pushStars, false)
  else if next == none || (inBraces && (next == some ',' || next == some '}')) then (st.replaceLast .under, false)
  else if next == some '/' then (st.replaceLast .between, true)
  else (st.pushStars, false)

def State.seen (st : State) (c : Char) : State := { st with last := some c }

def parseFrom (st : State) (s : List Char) : Except Fault (List Token) :=
  match s with
  | [] => if st.groups.isEmpty then .ok st.outer.reverse else .error .openBrace
  | '?' :: rest => parseFrom ((st.push .any).seen '?') rest
  | '*' :: '*' :: '/' :: rest =>
    match st.stars st.last (some '/') with
    | (st, true) => parseFrom (st.seen '/') rest
    | (st, false) => parseFrom ((st.push (.literal '/')).seen '/') rest
  | '*' :: '*' :: rest => parseFrom ((st.stars st.last rest.head?).1.seen '*') rest
  | '*' :: rest => parseFrom ((st.push .star).seen '*') rest
  | '[' :: rest =>
    match h : set? rest with
    | .ok (t, after) =>
      have := set?_length h
      parseFrom ((st.push t).seen ']') after
    | .error e => .error e
  | '{' :: rest => parseFrom ({ st with groups := [[]] :: st.groups } |>.seen '{') rest
  | '}' :: rest =>
    match st.close with
    | .ok st => parseFrom (st.seen '}') rest
    | .error e => .error e
  | ',' :: rest => parseFrom (st.comma.seen ',') rest
  | '\\' :: c :: rest => parseFrom ((st.push (.literal c)).seen c) rest
  | ['\\'] => .error .danglingEscape
  | c :: rest => parseFrom ((st.push (.literal c)).seen c) rest
termination_by s.length
decreasing_by all_goals simp_all <;> omega

def parse (pattern : String) : Except Fault (List Token) := parseFrom ⟨[], [], none⟩ pattern.toList

end LintHub.Glob
