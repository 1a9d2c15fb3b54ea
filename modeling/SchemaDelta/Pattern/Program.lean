import SchemaDelta.Pattern.Basic
import Std.Data.HashMap

/-!
# The size of a pattern's program

A pattern stands for a program of states over bytes, and patterns with too large
a program are refused.  There are two programs, for reading a text forward and
backward; the pattern is accepted if both are small enough.  States are numbered
in the order in which they are made.

The module counts states and bytes, and makes no program.  A state takes a fixed
number of bytes, and more of them for each of its branches and byte ranges.
-/

namespace SchemaDelta.Pattern

structure Program where
  states : Nat
  bytes : Nat

namespace Program

def sizeLimit : Nat := 10485760

def stateSize : Nat := 32

def branchSize : Nat := 4

def rangeSize : Nat := 8

def grow (states bytes : Nat) (program : Program) : Option Program :=
  let larger : Program := ⟨program.states + states, program.bytes + bytes⟩
  if larger.bytes ≤ sizeLimit then some larger else none

/-- States with one way to go on. -/
def addStates (n : Nat) (program : Program) : Option Program :=
  program.grow n (n * stateSize)

/-- A state with several byte ranges. -/
def addRanges (n : Nat) (program : Program) : Option Program :=
  program.grow 1 (stateSize + n * rangeSize)

/-- Branches of a state that is there already. -/
def addBranches (n : Nat) (program : Program) : Option Program :=
  program.grow 0 (n * branchSize)

end Program

inductive Direction
  | forward
  | backward
  deriving Repr, DecidableEq

/-- Adds states to a program and says whether the last one has branches, so that
going on from there is one more branch. -/
abbrev Assembly := Program → Option (Program × Bool)

/-- Goes on from a state. -/
def leave (branching : Bool) (program : Program) : Option Program :=
  program.addBranches (if branching then 1 else 0)

/-! ## Classes of characters -/

def hashStart : UInt64 := 14695981039346656037

def hashNext (hash : UInt64) (n : Nat) : UInt64 :=
  (hash ^^^ n.toUInt64) * 1099511628211

/-- A program with the states of the current class that can be used again.  They
are known by what they do; a state takes the place of another one with the same
hash. -/
structure Sharing where
  program : Program
  known : Std.HashMap Nat (List Nat × Nat)

/-- The state that does something: one that is there already, or a new one that
takes `size` bytes more than others. -/
def shared (slots size : Nat) (key : List Nat) (sharing : Sharing) : Option (Nat × Sharing) :=
  let slot := (key.foldl hashNext hashStart).toNat % slots
  match sharing.known[slot]?.filter (·.1 = key) with
  | some (_, state) => some (state, sharing)
  | none =>
      let state := sharing.program.states
      (sharing.program.grow 1 (Program.stateSize + size)).map fun program =>
        (state, ⟨program, sharing.known.insert slot (key, state)⟩)

/-- The state from which the sequences lead to a target.  Sequences are at most
`depth` long. -/
def stateFor (target : Nat) : (depth : Nat) → List (List Text.ByteRange) → Sharing →
    Option (Nat × Sharing)
  | 0, _, sharing => some (target, sharing)
  | depth + 1, sequences, sharing => do
      if sequences.all List.isEmpty then
        return (target, sharing)
      let bundles := sequences.splitBy fun a b => a.head? = b.head?
      let (keys, sharing) ← bundles.foldlM (fun (keys, sharing) bundle => do
          let (state, sharing) ← stateFor target depth (bundle.map List.tail) sharing
          let range := (bundle.head?.bind List.head?).getD (0, 0)
          return ([range.1, range.2, state] :: keys, sharing)) (([] : List (List Nat)), sharing)
      shared 10000 (keys.length * Program.rangeSize) keys.reverse.flatten sharing

/-- Adds the states that read one of the sequences from its end. -/
def addBackward (target : Nat) (sequences : List (List Text.ByteRange)) (sharing : Sharing) :
    Option Sharing :=
  sequences.foldlM (fun sharing sequence => do
    let (_, sharing) ← sequence.foldlM (fun (state, sharing) range =>
        shared 1000 0 [state, range.1, range.2] sharing) (target, sharing)
    let program ← sharing.program.addBranches 1
    return { sharing with program := program }) sharing

def assembleClass (direction : Direction) (members : Text.CharRanges) : Assembly :=
  fun program => do
    if members.all (·.2 < 0x80) then
      let program ← program.addStates 1
      let program ← program.addRanges members.length
      return (program, false)
    let sequences := members.flatMap fun (first, last) => Text.byteSequences first last
    match direction with
    | .forward =>
        let target := program.states
        let program ← program.addStates 1
        let (_, sharing) ← stateFor target 5 sequences ⟨program, ∅⟩
        return (sharing.program, false)
    | .backward =>
        let program ← program.addStates 1
        let target := program.states
        let program ← program.addStates 1
        let sharing ← addBackward target sequences ⟨program, ∅⟩
        return (sharing.program, false)

/-! ## Choices of texts -/

/-- Divides texts at the empty ones.  Several empty ones in front count once. -/
def divide (texts : List (List Nat)) : List (List (List Nat)) :=
  match texts with
  | [] :: rest => [] :: go (rest.dropWhile List.isEmpty)
  | texts => go texts
where
  go : List (List Nat) → List (List (List Nat))
    | [] => [[]]
    | [] :: texts => [] :: go texts
    | text :: texts =>
        match go texts with
        | bundle :: bundles => (text :: bundle) :: bundles
        | [] => [[text]]

/-- Adds the states that read one of the texts.  Texts with the same beginning
share states, unless a text that ends there stands between them. -/
def addTexts : (depth : Nat) → List (List Nat) → Program → Option Program
  | 0, _, program => some program
  | depth + 1, texts, program => do
      let bundles := divide texts
      let program ← bundles.foldlM (fun program bundle => do
          let bytes := (bundle.filterMap List.head?).eraseDups
          let program ← bytes.foldlM (fun program byte =>
              let rests := (bundle.filter (·.head? = some byte)).map List.tail
              if rests.all List.isEmpty then some program else addTexts depth rests program) program
          match bytes with
          | [] => return program
          | [_] => program.addStates 1
          | _ => program.addRanges bytes.length) program
      let used := bundles.countP fun bundle => !bundle.isEmpty
      let program ← program.addStates 1
      program.addBranches (used + (bundles.length - 1))

def assembleTexts (direction : Direction) (texts : List (List Char)) : Assembly :=
  fun program => do
    let texts := texts.map fun text =>
      let bytes := text.flatMap fun c => Text.utf8Bytes c.toNat
      match direction with
      | .forward => bytes
      | .backward => bytes.reverse
    let program ← program.addStates 1
    let program ← addTexts ((texts.map List.length).foldl Nat.max 0) texts program
    return (program, false)

/-! ## Repetitions -/

/-- Further copies behind a state. -/
def copiesBehind (assembly : Assembly) : (n : Nat) → (branching : Bool) → Assembly
  | 0, branching, program => some (program, branching)
  | n + 1, branching, program =>
      match assembly program with
      | none => none
      | some (program, next) =>
          match leave branching program with
          | none => none
          | some program => copiesBehind assembly n next program

def assembleExactly (assembly : Assembly) (n : Nat) : Assembly := fun program =>
  match n with
  | 0 => (program.addStates 1).map (·, false)
  | n + 1 => do
      let (program, branching) ← assembly program
      copiesBehind assembly n branching program

def assembleOptional (assembly : Assembly) : Assembly := fun program => do
  let program ← program.addStates 1
  let (program, branching) ← assembly program
  let program ← program.addStates 1
  let program ← program.addBranches 2
  return (← leave branching program, false)

/-- Optional copies, each inside the one in front of it. -/
def optionalBehind (assembly : Assembly) : (n : Nat) → (branching : Bool) → Assembly
  | 0, branching, program => (leave branching program).map (·, false)
  | n + 1, branching, program =>
      match program.addStates 1 >>= assembly with
      | none => none
      | some (program, next) =>
          match leave branching program >>= Program.addBranches 2 with
          | none => none
          | some program => optionalBehind assembly n next program

def assembleBetween (assembly : Assembly) (min max : Nat) : Assembly := fun program => do
  let (program, branching) ← assembleExactly assembly min program
  let program ← program.addStates 1
  optionalBehind assembly (max - min) branching program

/-- Any number of copies.  Copies that may be empty need a way around them. -/
def assembleAny (assembly : Assembly) (mayBeEmpty : Bool) : Assembly := fun program => do
  if mayBeEmpty then
    let (program, branching) ← assembly program
    let program ← program.addStates 3
    let program ← leave branching program
    return (← program.addBranches 4, false)
  else
    let program ← program.addStates 1
    let (program, branching) ← assembly program
    let program ← leave branching program
    return (← program.addBranches 1, true)

def assembleAtLeast (assembly : Assembly) (min : Nat) : Assembly := fun program => do
  let (program, branching) ← assembleExactly assembly min program
  let program ← program.addStates 1
  let program ← leave branching program
  return (← program.addBranches 1, true)

/-! ## Programs -/

/-- How a pattern is assembled, with its branches apart. -/
structure Assembled where
  whole : Assembly
  firstBranch : Assembly
  /-- Adds the other branches to a choice. -/
  otherBranches : Program → Option Program

def Assembled.ofAssembly (assembly : Assembly) : Assembled :=
  ⟨assembly, assembly, some⟩

def addBranch (assembly : Assembly) (program : Program) : Option Program := do
  let (program, branching) ← assembly program
  let program ← program.addBranches 1
  leave branching program

def assemble (direction : Direction) : Pattern → Assembled
  | empty | look _ => .ofAssembly fun program => (program.addStates 1).map (·, false)
  | literal text => .ofAssembly fun program =>
      (program.addStates (encodedLength text)).map (·, false)
  | oneOf members => .ofAssembly (assembleClass direction members)
  | group inner _ =>
      let assembly := (assemble direction inner).whole
      match direction with
      | .forward => .ofAssembly fun program => do
          let program ← program.addStates 1
          let (program, branching) ← assembly program
          let program ← program.addStates 1
          return (← leave branching program, false)
      | .backward => .ofAssembly assembly
  | repeated inner min max _ =>
      let assembly := (assemble direction inner).whole
      let mayBeEmpty := (inner.minLength?.getD 0) = 0
      .ofAssembly (match min, max with
        | 0, some 1 => assembleOptional assembly
        | 0, none => assembleAny assembly mayBeEmpty
        | min, none => assembleAtLeast assembly min
        | min, some max =>
            if min = max then assembleExactly assembly min else assembleBetween assembly min max)
  | sequence first rest =>
      let a := (assemble direction first).whole
      let b := (assemble direction rest).whole
      .ofAssembly fun program => do
        let (front, back) := match direction with
          | .forward => (a, b)
          | .backward => (b, a)
        let (program, branching) ← front program
        let (program, branchingBack) ← back program
        return (← leave branching program, branchingBack)
  | either first rest =>
      let a := assemble direction first
      let b := assemble direction rest
      { firstBranch := a.whole
        otherBranches := fun program => addBranch b.firstBranch program >>= b.otherBranches
        whole := fun program =>
          match texts? (either first rest) with
          | some texts => assembleTexts direction texts program
          | none => do
              let (program, branchingA) ← a.whole program
              let (program, branchingB) ← b.firstBranch program
              let program ← program.addStates 2
              let program ← program.addBranches 2
              let program ← leave branchingA program >>= leave branchingB
              return (← b.otherBranches program, false) }

/-- Whether matches can only begin, or end, at an end of the text. -/
def isAnchored (direction : Direction) : Pattern → Bool
  | look condition =>
      match direction with
      | .forward => condition = .textStart
      | .backward => condition = .textEnd
  | group inner _ => inner.isAnchored direction
  | repeated inner min _ _ => 0 < min && inner.isAnchored direction
  | sequence first rest =>
      match direction with
      | .forward =>
          first.isAnchored direction
            || (first.maxLength? = some 0 && rest.isAnchored direction)
      | .backward =>
          rest.isAnchored direction
            || (rest.maxLength? = some 0 && first.isAnchored direction)
  | either first rest => first.isAnchored direction && rest.isAnchored direction
  | _ => false

/-- The program of a pattern, unless it is too large.  It starts with a loop over
any bytes if matches can be anywhere. -/
def program? (direction : Direction) (pattern : Pattern) : Option Program := do
  let program : Program := ⟨0, 0⟩
  let anchored := pattern.isAnchored direction
  let program ←
    if anchored then program.addStates 1
    else program.addStates 2 >>= Program.addRanges 1 >>= Program.addBranches 2
  let (program, branching) ← (assemble direction (group pattern 0)).whole program
  let program ← program.addStates 1
  leave branching program

/-- Whether the programs of the pattern are small enough. -/
def isSmall (pattern : Pattern) : Bool :=
  (program? .forward pattern).isSome && (program? .backward pattern).isSome

end SchemaDelta.Pattern
