import Metering.Yaml.Node
import Metering.Yaml.Tokens

/-!
# Yaml — Document

A YAML document (`Document.ofText`): its root node, the nodes that aliases stand for, and whether the text could be
read to its end and held nothing more.
-/

namespace Metering.Yaml

structure Document where
  /-- The root, if there is anything at all. -/
  root : Option Node
  anchored : List Anchored
  /-- Whether the text can be read and is one document. -/
  sound : Bool

namespace Document

/-- The handles that are known in every document. -/
def defaultHandles : List (String × Tag) :=
  [("!", .ofString "!"), ("!!", .ofString "tag:yaml.org,2002:")]

/-- Reads the directives before a document, of which there is at most one version and one for each handle.  The
result is the handles declared and the tokens after the directives. -/
def readDirectives (versioned : Bool) (handles : List (String × Tag)) :
    List Token → Option (List (String × Tag) × List Token)
  | .versionDirective major minor :: rest =>
      if versioned ∨ major ≠ 1 ∨ ¬ (minor = 1 ∨ minor = 2) then none
      else readDirectives true handles rest
  | .tagDirective handle start :: rest =>
      if handles.any fun h => h.1 = handle then none
      else readDirectives versioned (handles ++ [(handle, start)]) rest
  | rest => some (handles, rest)

/-- The root after a marker, which may be absent. -/
def explicitRoot (c : Composer) (fuel : Nat) : Node × Composer :=
  match c.tokens with
  | .versionDirective .. :: _ | .tagDirective .. :: _ | .documentStart :: _ | .documentEnd :: _
  | .streamEnd :: _ => (Composer.absent, c)
  | _ => Composer.node true false fuel c

/-- The document with a root after which some tokens are left: the end of the text, and markers before it. -/
def ofRoot (result : Node × Composer) : Document :=
  let (root, c) := result
  { root := some root
    anchored := c.anchored
    sound := c.tokens.dropWhile (· = .documentEnd) = [.streamEnd] }

/-- The first document that tokens make. -/
def ofTokens (tokens : List Token) : Document :=
  let fuel := 4 * tokens.length + 8
  match tokens with
  | .streamEnd :: _ => ⟨none, [], true⟩
  | .versionDirective .. :: _ | .tagDirective .. :: _ | .documentStart :: _ =>
      match readDirectives false [] tokens with
      | some (handles, .documentStart :: tokens) =>
          ofRoot (explicitRoot { tokens, handles := handles ++ defaultHandles } fuel)
      | _ => ⟨some .broken, [], false⟩
  | _ => ofRoot (Composer.node true false fuel { tokens, handles := defaultHandles })

def ofText (text : String) : Document := ofTokens (tokensOf text)

/-- The node with a number: the last one that started with it. -/
def numbered (d : Document) (number : Nat) : Node :=
  let latest := (d.anchored.filter fun a => a.number = number).foldl
    (fun best a => if best.any fun b => a.started ≤ b.started then best else some a)
    (none : Option Anchored)
  latest.elim .broken (·.node)

/-- What a node stands for: itself, unless it is an alias. -/
def resolve (d : Document) : Node → Node
  | .alias number => d.numbered number
  | n => n

end Document

end Metering.Yaml
