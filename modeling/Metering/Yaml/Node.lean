import Metering.Table
import Metering.Yaml.Token

/-!
# Yaml — Node

The nodes of a YAML document (`Document.ofTokens`).  A document may break off: where the text cannot be read on, a
`broken` node stands, and everything before it is kept, so that what is wrong earlier in the text is found first.

Anchors are numbered.  A name that is anchored anew gets the number of names that are known, as a new name does; two
nodes may so come to have one number, and then it stands for the later one.
-/

namespace Metering.Yaml

inductive Node where
  | scalar (text : String) (style : Style) (tag : Option Tag)
  | sequence (items : List Node)
  | mapping (members : List (Node × Node))
  /-- The node with that number. -/
  | alias (number : Nat)
  /-- The text cannot be read on. -/
  | broken

/-- A node that has a number, and how many such nodes had started before it. -/
structure Anchored where
  started : Nat
  number : Nat
  node : Node

/-- How far the tokens have been read. -/
structure Composer where
  tokens : List Token
  /-- The numbers of the names that are anchored. -/
  names : Table String Nat := .empty
  started : Nat := 0
  anchored : List Anchored := []
  /-- What the handles of tags stand for. -/
  handles : List (String × Tag) := []

namespace Composer

/-- Gives up: no token is left. -/
def fail (c : Composer) : Node × Composer := (.broken, { c with tokens := [] })

/-- The tokens without the first. -/
def next (c : Composer) : Composer := { c with tokens := c.tokens.drop 1 }

/-- A node that is not written. -/
def absent : Node := .scalar "" .plain none

/-- What stands before a node: the name that it is anchored under, and its tag. -/
structure Properties where
  anchor : Option String := none
  tag : Option (String × Tag) := none

/-- Reads an anchor and a tag, in either order. -/
def readProperties (c : Composer) : Properties × Composer :=
  match c.tokens with
  | .anchor name :: .tag handle suffix :: rest =>
      (⟨some name, some (handle, suffix)⟩, { c with tokens := rest })
  | .tag handle suffix :: .anchor name :: rest =>
      (⟨some name, some (handle, suffix)⟩, { c with tokens := rest })
  | .anchor name :: rest => (⟨some name, none⟩, { c with tokens := rest })
  | .tag handle suffix :: rest => (⟨none, some (handle, suffix)⟩, { c with tokens := rest })
  | _ => ({}, c)

/-- The tag that a handle and a suffix write, if the handle is known. -/
def resolveTag (c : Composer) (handle : String) (suffix : Tag) : Option Tag :=
  if handle = "" then some suffix
  else (c.handles.find? fun h => h.1 = handle).map fun h => h.2 ++ suffix

/-- The tag of a node, if it has one; none at all if its handle is not known. -/
def tagOf (c : Composer) (p : Properties) : Option (Option Tag) :=
  match p.tag with
  | none => some none
  | some (handle, suffix) => (c.resolveTag handle suffix).map some

/-- Starts a node that may be anchored, and gives it its number. -/
def start (c : Composer) (anchor : Option String) : Option (Nat × Nat) × Composer :=
  match anchor with
  | none => (none, c)
  | some name =>
      let number := c.names.size
      (some (c.started, number),
        { c with names := c.names.insert name number, started := c.started + 1 })

/-- Ends a node that was started, and keeps it under its number. -/
def finish (mark : Option (Nat × Nat)) (result : Node × Composer) : Node × Composer :=
  match mark with
  | none => result
  | some (started, number) =>
      let (node, c) := result
      (node, { c with anchored := ⟨started, number, node⟩ :: c.anchored })

/-- The tag that a scalar keeps.  A mark alone says nothing more than that there is a scalar. -/
def scalarTag (tag : Option Tag) : Option Tag :=
  if tag = some (.ofString "!") then none else tag

mutual

/-- The node at the first token.  In a block it may be a block collection, and in a block mapping also a sequence
that is not indented. -/
def node (inBlock maySit : Bool) : (fuel : Nat) → Composer → Node × Composer
  | 0, c => c.fail
  | fuel + 1, c =>
      match c.tokens with
      | .alias name :: _ =>
          match c.names.get? name with
          | some number => (.alias number, c.next)
          | none => c.fail
      | _ =>
          let (p, c) := c.readProperties
          match c.tokens, c.tagOf p with
          | [], _ | _, none => c.fail
          | token :: _, some tag =>
              let (mark, d) := c.start p.anchor
              match token with
              | .blockEntry =>
                  if maySit then finish mark (sittingItems fuel [] d)
                  else if p.anchor.isSome || tag.isSome then finish mark (.scalar "" .plain tag, d)
                  else c.fail
              | .scalar text style => finish mark (.scalar text style (scalarTag tag), d.next)
              | .flowSequenceStart => finish mark (flowItems fuel [] d.next)
              | .flowMappingStart => finish mark (flowMembers fuel [] d.next)
              | .blockSequenceStart =>
                  if inBlock then finish mark (blockItems fuel [] d.next)
                  else if p.anchor.isSome || tag.isSome then finish mark (.scalar "" .plain tag, d)
                  else c.fail
              | .blockMappingStart =>
                  if inBlock then finish mark (blockMembers fuel [] d.next)
                  else if p.anchor.isSome || tag.isSome then finish mark (.scalar "" .plain tag, d)
                  else c.fail
              | _ =>
                  if p.anchor.isSome || tag.isSome then finish mark (.scalar "" .plain tag, d)
                  else c.fail

/-- The items of a block sequence, with those so far in reverse. -/
def blockItems : (fuel : Nat) → List Node → Composer → Node × Composer
  | 0, items, c => (.sequence (.broken :: items).reverse, c.fail.2)
  | fuel + 1, items, c =>
      match c.tokens with
      | .blockEntry :: .blockEntry :: _ => blockItems fuel (absent :: items) c.next
      | .blockEntry :: .blockEnd :: _ => blockItems fuel (absent :: items) c.next
      | .blockEntry :: _ =>
          let (item, c) := node true false fuel c.next
          blockItems fuel (item :: items) c
      | .blockEnd :: _ => (.sequence items.reverse, c.next)
      | _ => (.sequence (.broken :: items).reverse, c.fail.2)

/-- The items of a sequence that is not indented, with those so far in reverse. -/
def sittingItems : (fuel : Nat) → List Node → Composer → Node × Composer
  | 0, items, c => (.sequence (.broken :: items).reverse, c.fail.2)
  | fuel + 1, items, c =>
      match c.tokens with
      | [] => (.sequence (.broken :: items).reverse, c.fail.2)
      | .blockEntry :: rest =>
          match rest with
          | .blockEntry :: _ | .key :: _ | .value :: _ | .blockEnd :: _ =>
              sittingItems fuel (absent :: items) c.next
          | _ =>
              let (item, c) := node true false fuel c.next
              sittingItems fuel (item :: items) c
      | _ => (.sequence items.reverse, c)

/-- The members of a block mapping, with those so far in reverse. -/
def blockMembers : (fuel : Nat) → List (Node × Node) → Composer → Node × Composer
  | 0, members, c => (.mapping ((.broken, .broken) :: members).reverse, c.fail.2)
  | fuel + 1, members, c =>
      match c.tokens with
      | .key :: rest =>
          let (key, c) := match rest with
            | .key :: _ | .value :: _ | .blockEnd :: _ => (absent, c.next)
            | _ => node true true fuel c.next
          let (value, c) := blockValue fuel c
          blockMembers fuel ((key, value) :: members) c
      | .blockEnd :: _ => (.mapping members.reverse, c.next)
      | _ => (.mapping ((.broken, .broken) :: members).reverse, c.fail.2)

/-- The value of a member of a block mapping, which may be absent. -/
def blockValue : (fuel : Nat) → Composer → Node × Composer
  | 0, c => c.fail
  | fuel + 1, c =>
      match c.tokens with
      | [] => c.fail
      | .value :: rest =>
          match rest with
          | .key :: _ | .value :: _ | .blockEnd :: _ => (absent, c.next)
          | _ => node true true fuel c.next
      | _ => (absent, c)

/-- The items of a flow sequence, with those so far in reverse.  A key makes a mapping of one member. -/
def flowItems : (fuel : Nat) → List Node → Composer → Node × Composer
  | 0, items, c => (.sequence (.broken :: items).reverse, c.fail.2)
  | fuel + 1, items, c =>
      let fail := (Node.sequence (.broken :: items).reverse, c.fail.2)
      match c.tokens with
      | [] => fail
      | .flowSequenceEnd :: _ => (.sequence items.reverse, c.next)
      | first :: _ =>
          if items ≠ [] ∧ first ≠ .flowEntry then fail
          else
            let c := if items ≠ [] then c.next else c
            match c.tokens with
            | [] => fail
            | .flowSequenceEnd :: _ => (.sequence items.reverse, c.next)
            | .key :: _ =>
                let (key, c) := match c.next.tokens with
                  | .value :: _ | .flowEntry :: _ | .flowSequenceEnd :: _ => (absent, c.next.next)
                  | _ => node false false fuel c.next
                let (value, c) := flowValue .flowSequenceEnd fuel c
                flowItems fuel (.mapping [(key, value)] :: items) c
            | _ =>
                let (item, c) := node false false fuel c
                flowItems fuel (item :: items) c

/-- The value of a member within brackets that close with that token; it may be absent. -/
def flowValue (closing : Token) : (fuel : Nat) → Composer → Node × Composer
  | 0, c => c.fail
  | fuel + 1, c =>
      match c.tokens with
      | [] => c.fail
      | .value :: rest =>
          match rest with
          | [] => c.fail
          | t :: _ => if t = .flowEntry ∨ t = closing then (absent, c.next)
              else node false false fuel c.next
      | _ => (absent, c)

/-- The members of a flow mapping, with those so far in reverse. -/
def flowMembers : (fuel : Nat) → List (Node × Node) → Composer → Node × Composer
  | 0, members, c => (.mapping ((.broken, .broken) :: members).reverse, c.fail.2)
  | fuel + 1, members, c =>
      let fail := (Node.mapping ((.broken, .broken) :: members).reverse, c.fail.2)
      match c.tokens with
      | [] => fail
      | .flowMappingEnd :: _ => (.mapping members.reverse, c.next)
      | first :: _ =>
          if members ≠ [] ∧ first ≠ .flowEntry then fail
          else
            let c := if members ≠ [] then c.next else c
            match c.tokens with
            | [] => fail
            | .flowMappingEnd :: _ => (.mapping members.reverse, c.next)
            | .key :: _ =>
                let (key, c) := match c.next.tokens with
                  | .value :: _ | .flowEntry :: _ | .flowMappingEnd :: _ => (absent, c.next)
                  | _ => node false false fuel c.next
                let (value, c) := flowValue .flowMappingEnd fuel c
                flowMembers fuel ((key, value) :: members) c
            | _ =>
                let (key, c) := node false false fuel c
                let (value, c) := if c.tokens = [] then c.fail else (absent, c)
                flowMembers fuel ((key, value) :: members) c

end

end Composer

end Metering.Yaml
