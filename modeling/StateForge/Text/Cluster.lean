import StateForge.Text.Rune
import StateForge.Text.ClusterClass

/-!
# Grapheme clusters

A cluster is what a reader takes for one character: a letter with its accents, a syllable, a flag,
a family of emoji. Texts are cut into clusters by the boundary rules of Unicode 15.0 (extended
clusters, without the rule on conjuncts that later versions add).

The cut is made on bytes, and malformed bytes take part in it as units of their own: a sequence
that is too short where the text goes on is one unit, and a lead byte with too few bytes left in the
whole text takes all of them and never opens a new cluster.
-/

set_option autoImplicit false

namespace StateForge

/-- A unit between whose neighbours a cluster may end. -/
structure ClusterUnit where
  /-- Its class; malformed bytes are in the class `other`. -/
  cls : ClusterClass
  /-- The character it shows as. -/
  shown : Char
  /-- Does it end the text in the middle of a sequence? -/
  cutShort : Bool := false

namespace ClusterUnit

/-- The unit of a well-formed character. -/
def ofChar (c : Char) : ClusterUnit :=
  { cls := .ofCode c.toNat, shown := c }

/-- The unit of malformed bytes. -/
def malformed : ClusterUnit :=
  { cls := .other, shown := '�' }

/-- The unit of the bytes at the end of the text that begin a longer sequence. -/
def truncated : ClusterUnit :=
  { cls := .other, shown := '�', cutShort := true }

/-- The unit of a sequence of the right shape: it may still encode no character. -/
def ofScalar : Option Char → ClusterUnit
  | some c => ofChar c
  | none => malformed

end ClusterUnit

namespace Text

/-- The units of a text, from left to right. -/
def clusterUnits : Text → List ClusterUnit
  | [] => []
  | b0 :: r0 =>
    if b0 < 0x80 then .ofChar (Char.ofNat b0.toNat) :: clusterUnits r0
    else if b0 < 0xc2 || 0xf8 ≤ b0 then .malformed :: clusterUnits r0
    else
      match r0 with
      | [] => [.truncated]
      | b1 :: r1 =>
        if b0 < 0xe0 then
          if isContinuation b1 then .ofScalar (scalar2? b0 b1) :: clusterUnits r1
          else .malformed :: clusterUnits (b1 :: r1)
        else
          match r1 with
          | [] => [.truncated]
          | b2 :: r2 =>
            if b0 < 0xf0 then
              if !isContinuation b1 then .malformed :: clusterUnits (b1 :: b2 :: r2)
              else if !isContinuation b2 then .malformed :: clusterUnits (b2 :: r2)
              else .ofScalar (scalar3? b0 b1 b2) :: clusterUnits r2
            else
              match r2 with
              | [] => [.truncated]
              | b3 :: r3 =>
                if !isContinuation b1 then .malformed :: clusterUnits (b1 :: b2 :: b3 :: r3)
                else if !isContinuation b2 then .malformed :: clusterUnits (b2 :: b3 :: r3)
                else if !isContinuation b3 then .malformed :: clusterUnits (b3 :: r3)
                else .ofScalar (scalar4? b0 b1 b2 b3) :: clusterUnits r3
termination_by structural s => s

end Text

/-- What the rules remember of the cluster they are in. -/
structure ClusterContext where
  /-- The class of the last unit. -/
  last : ClusterClass
  /-- Are the units up to here a pictograph, extenders and at most one joiner at the end? -/
  pictographic : Bool
  /-- Is the number of regional indicators at the end odd? -/
  oddRegional : Bool

namespace ClusterContext

/-- The context after the first unit of a cluster. -/
def start (u : ClusterUnit) : ClusterContext :=
  { last := u.cls, pictographic := u.cls == .pictograph, oddRegional := u.cls == .regional }

/-- The context after one more unit of the same cluster. -/
def push (ctx : ClusterContext) (u : ClusterUnit) : ClusterContext :=
  { last := u.cls
    pictographic :=
      u.cls == .pictograph ||
        ctx.pictographic && ctx.last != .joiner && (u.cls == .extender || u.cls == .joiner)
    oddRegional := u.cls == .regional && !(ctx.last == .regional && ctx.oddRegional) }

/-- Line ends and controls stand alone. -/
def isBreaker (c : ClusterClass) : Bool :=
  c == .control || c == .carriageReturn || c == .lineFeed

/-- Does the cluster go on with this unit? -/
def joins (ctx : ClusterContext) (u : ClusterUnit) : Bool :=
  if u.cutShort then true
  else if ctx.last == .carriageReturn && u.cls == .lineFeed then true
  else if isBreaker ctx.last || isBreaker u.cls then false
  else
    match ctx.last, u.cls with
    | .hangulLead, .hangulLead | .hangulLead, .hangulVowel | .hangulLead, .hangulOpen
    | .hangulLead, .hangulClosed => true
    | .hangulOpen, .hangulVowel | .hangulOpen, .hangulTail | .hangulVowel, .hangulVowel
    | .hangulVowel, .hangulTail => true
    | .hangulClosed, .hangulTail | .hangulTail, .hangulTail => true
    | _, .extender | _, .joiner | _, .spacingMark => true
    | .prepended, _ => true
    | .joiner, .pictograph => ctx.pictographic
    | .regional, .regional => ctx.oddRegional
    | _, _ => false

end ClusterContext

/-- Cuts a list of units: `current` is the open cluster, its last unit first. -/
def cutClusters (ctx : ClusterContext) (current : List ClusterUnit) :
    List ClusterUnit → List (List ClusterUnit)
  | [] => [current.reverse]
  | u :: rest =>
    if ctx.joins u then cutClusters (ctx.push u) (u :: current) rest
    else current.reverse :: cutClusters (.start u) [u] rest

/-- The clusters of a text, each as its units. -/
def Text.clusters (s : Text) : List (List ClusterUnit) :=
  match s.clusterUnits with
  | [] => []
  | u :: rest => cutClusters (.start u) [u] rest

end StateForge
