import SmetricRouter.Library.Ordering
import SmetricRouter.Library.Table
import SmetricRouter.Library.Traversal
import SmetricRouter.PrefixTree.Text

/-! The multi-tenant radix tree behind cache-aware routing.

Nodes are cells of a heap that refer to each other, as the shared references of
the source do: a child is found under the first character of its text and points
back to its parent, and a node that was cut off stays behind in the heap. Each
operation takes the value of the global epoch counter that it draws, since other
trees draw from it too, and the order in which it sees hash maps and equal
entries of the eviction heap.

`none` stands for a panic or for a loop that has not ended.
-/

namespace SmetricRouter.PrefixTree

abbrev NodeRef : Type := Nat

structure Node where
  children : Table Char NodeRef
  text : NodeText
  tenantLastAccessTime : Table String Nat
  parent : Option NodeRef
  lastTenant : Option String

instance : Inhabited Node := ⟨⟨∅, .empty, ∅, none, none⟩⟩

def Node.hasTenant (node : Node) (tenant : String) : Bool :=
  (node.tenantLastAccessTime.lookup tenant).isSome

structure EvictionEntry where
  timestamp : Nat
  tenant : String
  node : NodeRef
  deriving DecidableEq, Repr

/-- The orders that one operation meets: of the entries of hash maps, node by
node, and of the entries of the eviction heap, which is sorted by time alone. -/
structure MapOrder where
  children : NodeRef → List Char → List Char
  children_perm : ∀ node keys, (children node keys).Perm keys
  tenants : NodeRef → List String → List String
  tenants_perm : ∀ node keys, (tenants node keys).Perm keys
  heap : Nat → List EvictionEntry → List EvictionEntry
  heap_perm : ∀ round entries, (heap round entries).Perm entries

def MapOrder.filled : MapOrder where
  children _ := id
  children_perm _ _ := .refl _
  tenants _ := id
  tenants_perm _ _ := .refl _
  heap _ := id
  heap_perm _ _ := .refl _

structure Tree where
  /-- The heap cells; those from `allocated` on are not in use yet. -/
  node : NodeRef → Node
  allocated : NodeRef
  tenantCharCount : Table String Nat

structure PrefixMatchResult where
  tenant : String
  matchedCharCount : Nat
  inputCharCount : Nat
  deriving DecidableEq, Repr

namespace Tree

def root : NodeRef := 0

def new : Tree := ⟨fun _ => default, 1, ∅⟩

variable (tree : Tree) (reference : NodeRef)

def modify (change : Node → Node) : Tree :=
  { tree with node := Function.update tree.node reference (change (tree.node reference)) }

def touch (tenant : String) (time : Nat) : Tree :=
  tree.modify reference fun node =>
    { node with tenantLastAccessTime := node.tenantLastAccessTime.insert tenant time }

def charge (tenant : String) (charCount : Nat) : Tree :=
  { tree with
    tenantCharCount := tree.tenantCharCount.insert tenant
      ((tree.tenantCharCount.lookup tenant).getD 0 + charCount) }

def ensureTenant (tenant : String) (charCount : Nat) : Tree :=
  if (tree.node reference).hasTenant tenant then tree
  else (tree.charge tenant charCount).touch reference tenant 0

section Insert

variable (tree : Tree)

def attachLeaf (previous : NodeRef) (firstChar : Char) (remaining : List Char) (tenant : String)
    (epoch : Nat) : Tree :=
  let leaf : Node :=
    { children := ∅
      text := .new remaining
      tenantLastAccessTime := (∅ : Table String Nat).insert tenant epoch
      parent := some previous
      lastTenant := some tenant }
  let above := tree.node previous
  { tree.charge tenant remaining.length with
    node := Function.update (Function.update tree.node previous
      { above with children := above.children.insert firstChar tree.allocated })
      tree.allocated leaf
    allocated := tree.allocated + 1 }

/-- Put a node with the first characters of a child's text above that child. -/
def splitNode (previous : NodeRef) (firstChar : Char) (matchedNode : NodeRef) (sharedCount : Nat) :
    Option Tree := do
  let matched := tree.node matchedNode
  let (matchedText, contractedText) := matched.text.splitAtChar sharedCount
  let firstNewChar ← contractedText.firstChar
  let newNode : Node :=
    { text := matchedText
      children := (∅ : Table Char NodeRef).insert firstNewChar matchedNode
      parent := some previous
      tenantLastAccessTime := matched.tenantLastAccessTime
      lastTenant := matched.lastTenant }
  let above := tree.node previous
  return { tree with
    node := Function.update (Function.update (Function.update tree.node previous
      { above with children := above.children.insert firstChar tree.allocated })
      matchedNode { matched with text := contractedText, parent := some tree.allocated })
      tree.allocated newNode
    allocated := tree.allocated + 1 }

/-- The insertion loop, from a node that the text before `remaining` leads to. -/
def insertFrom (tenant : String) (epoch : Nat) :
    Nat → Tree → NodeRef → List Char → Option Tree
  | _, tree, previous, [] => some (tree.touch previous tenant epoch)
  | 0, _, _, _ :: _ => none
  | fuel + 1, tree, previous, firstChar :: rest =>
    match (tree.node previous).children.lookup firstChar with
    | none => some (tree.attachLeaf previous firstChar (firstChar :: rest) tenant epoch)
    | some matchedNode => do
      let text := (tree.node matchedNode).text
      let sharedCount := sharedPrefixCount (firstChar :: rest) text.text
      if sharedCount < text.charCount then
        let split ← tree.splitNode previous firstChar matchedNode sharedCount
        insertFrom tenant epoch fuel (split.ensureTenant tree.allocated tenant sharedCount)
          tree.allocated (advanceByChars (firstChar :: rest) sharedCount)
      else
        insertFrom tenant epoch fuel (tree.ensureTenant matchedNode tenant text.charCount)
          matchedNode (advanceByChars (firstChar :: rest) sharedCount)

def register (tenant : String) : Tree :=
  let rooted := tree.modify root fun node =>
    { node with tenantLastAccessTime := node.tenantLastAccessTime.orDefault tenant }
  { rooted with tenantCharCount := rooted.tenantCharCount.orDefault tenant }

def insert (text : List Char) (tenant : String) (epoch : Nat) : Option Tree :=
  insertFrom tenant epoch text.length (tree.register tenant) root text

end Insert

section Match

/-- Follow a text down from a node through children that are let through, with
the number of characters matched so far. -/
def descend (tree : Tree) (admits : Node → Bool) :
    Nat → NodeRef → List Char → Nat → Option (Nat × NodeRef)
  | _, previous, [], matchedChars => some (matchedChars, previous)
  | 0, _, _ :: _, _ => none
  | fuel + 1, previous, firstChar :: rest, matchedChars =>
    match (tree.node previous).children.lookup firstChar with
    | none => some (matchedChars, previous)
    | some matchedNode =>
      let matched := tree.node matchedNode
      if !admits matched then some (matchedChars, previous)
      else
        let sharedChars := sharedPrefixCount (firstChar :: rest) matched.text.text
        if sharedChars ≠ matched.text.charCount then some (matchedChars + sharedChars, matchedNode)
        else
          tree.descend admits fuel matchedNode (advanceByChars (firstChar :: rest) sharedChars)
            (matchedChars + sharedChars)

variable (tree : Tree) (text : List Char)

def prefixMatchTenantState (tenant : String) : Option (Nat × NodeRef) :=
  tree.descend (fun node => node.hasTenant tenant) text.length root text 0

def prefixMatchTenantCharCount (tenant : String) : Option Nat :=
  (tree.prefixMatchTenantState text tenant).map (·.1)

/-- Refreshes the access time of the tenant at the node it was found at. -/
def prefixMatchTenant (tenant : String) (epoch : Nat) : Option (List Char × Tree) := do
  let (matchedChars, current) ← tree.prefixMatchTenantState text tenant
  let touched :=
    if (tree.node current).hasTenant tenant then tree.touch current tenant epoch else tree
  return (takeChars text matchedChars, touched)

variable (order : MapOrder)

/-- The cached tenant of a node if it is still there, else the first in the map. -/
def selectTenant (current : NodeRef) : String × Tree :=
  let node := tree.node current
  match node.lastTenant.filter node.hasTenant with
  | some tenant => (tenant, tree)
  | none =>
    let tenant := (order.tenants current node.tenantLastAccessTime.keys).head?.getD "empty"
    (tenant, tree.modify current fun node => { node with lastTenant := some tenant })

def prefixMatchWithCounts (text : List Char) (epoch : Nat) : Option (PrefixMatchResult × Tree) := do
  let (matchedChars, current) ← tree.descend (fun _ => true) text.length root text 0
  let (tenant, selected) := tree.selectTenant order current
  -- Only one match in eight writes the access time.
  let touched := if epoch % 8 = 0 then selected.touch current tenant epoch else selected
  return (⟨tenant, matchedChars, text.length⟩, touched)

def prefixMatch (text : List Char) (epoch : Nat) : Option ((List Char × String) × Tree) := do
  let (result, next) ← tree.prefixMatchWithCounts order text epoch
  return ((takeChars text result.matchedCharCount, result.tenant), next)

end Match

section Remove

variable (order : MapOrder) (tree : Tree) (reference : NodeRef)

def childrenOf : List NodeRef :=
  (order.children reference (tree.node reference).children.keys).filterMap
    (tree.node reference).children.lookup

/-- All nodes, in the order in which a stack of references visits them. -/
def nodes : Option (List NodeRef) :=
  visit (tree.childrenOf order) tree.allocated [root]

variable (tenant : String)

def hasChildWithTenant : Bool :=
  (tree.childrenOf order reference).any fun child => (tree.node child).hasTenant tenant

/-- The tenants for which the node is a leaf. -/
def leafOf : List String :=
  let own : Table String Bool := (tree.node reference).tenantLastAccessTime.keys.foldl
    (fun candidates tenant => candidates.insert tenant true) ∅
  let candidates := (tree.childrenOf order reference).foldl
    (fun candidates child => (order.tenants child (tree.node child).tenantLastAccessTime.keys).foldl
      (fun candidates tenant => candidates.insert tenant false) candidates)
    own
  (order.tenants reference candidates.keys).filter fun tenant =>
    candidates.lookup tenant == some true

/-- Take a tenant off a node, and the node off its parent if nothing is left of it. -/
def dropTenant : Tree :=
  let dropped := tree.modify reference fun node =>
    { node with tenantLastAccessTime := node.tenantLastAccessTime.erase tenant }
  let node := dropped.node reference
  if node.children.keys.isEmpty && node.tenantLastAccessTime.keys.isEmpty then
    match node.parent, node.text.firstChar with
    | some parent, some firstChar =>
      dropped.modify parent fun above => { above with children := above.children.erase firstChar }
    | _, _ => dropped
  else dropped

def parentLeaf : Option NodeRef :=
  (tree.node reference).parent.filter fun parent =>
    (tree.node parent).hasTenant tenant && !tree.hasChildWithTenant order parent tenant

def evictionEntries (nodes : List NodeRef) : List EvictionEntry :=
  nodes.flatMap fun reference => (tree.leafOf order reference).filterMap fun tenant =>
    ((tree.node reference).tenantLastAccessTime.lookup tenant).map fun timestamp =>
      ⟨timestamp, tenant, reference⟩

def popEntry (round : Nat) (entries : List EvictionEntry) :
    Option (EvictionEntry × List EvictionEntry) :=
  (minBy (fun left right => compare left.timestamp right.timestamp)
    (order.heap round entries)).map fun entry => (entry, entries.erase entry)

/-- Whether the entry is passed over: its tenant is small enough by now, or the
node is no leaf for it any more. -/
def spares (maxSize : Nat) (entry : EvictionEntry) : Bool :=
  ((tree.tenantCharCount.lookup entry.tenant).any fun usedSize => decide (usedSize ≤ maxSize)) ||
    !((tree.node entry.node).hasTenant entry.tenant &&
      !tree.hasChildWithTenant order entry.node entry.tenant)

/-- Take the tenant of an entry off its node. -/
def evictEntry (entry : EvictionEntry) : Tree :=
  let charCount := (tree.node entry.node).text.charCount
  let uncharged :=
    { tree with
      tenantCharCount := tree.tenantCharCount.modify entry.tenant fun count => count - charCount }
  uncharged.dropTenant entry.node entry.tenant

def evictLoop (maxSize : Nat) : Nat → Tree → List EvictionEntry → Option Tree
  | fuel, tree, entries =>
    match popEntry order fuel entries with
    | none => some tree
    | some (entry, rest) =>
      match fuel with
      | 0 => none
      | fuel + 1 =>
        if tree.spares order maxSize entry then evictLoop maxSize fuel tree rest
        else
          let evicted := tree.evictEntry entry
          let leaf := (evicted.parentLeaf order entry.node entry.tenant).bind fun parent =>
            ((evicted.node parent).tenantLastAccessTime.lookup entry.tenant).map fun timestamp =>
              (⟨timestamp, entry.tenant, parent⟩ : EvictionEntry)
          evictLoop maxSize fuel evicted (rest ++ leaf.toList)

def tenantMarks : Nat :=
  ((List.range tree.allocated).map fun reference =>
    (tree.node reference).tenantLastAccessTime.keys.length).sum

def evictTenantBySize (maxSize : Nat) : Option Tree := do
  let nodes ← tree.nodes order
  let entries := tree.evictionEntries order nodes
  evictLoop order maxSize (entries.length + tree.tenantMarks) tree entries

def removeLoop (tenant : String) : Nat → Tree → List NodeRef → Option Tree
  | _, tree, [] => some tree
  | 0, _, _ :: _ => none
  | fuel + 1, tree, current :: rest =>
    let dropped := tree.dropTenant current tenant
    removeLoop tenant fuel dropped (rest ++ (dropped.parentLeaf order current tenant).toList)

def removeTenant : Option Tree := do
  let nodes ← tree.nodes order
  let leaves := nodes.filter fun reference =>
    (tree.node reference).hasTenant tenant && !tree.hasChildWithTenant order reference tenant
  let removed ← removeLoop order tenant tree.allocated tree leaves
  return { removed with tenantCharCount := removed.tenantCharCount.erase tenant }

def getUsedSizePerTenant : Option (Table String Nat) := do
  let nodes ← tree.nodes order
  return nodes.foldl
    (fun sizes reference =>
      (order.tenants reference (tree.node reference).tenantLastAccessTime.keys).foldl
        (fun sizes tenant => sizes.insert tenant
          ((sizes.lookup tenant).getD 0 + (tree.node reference).text.charCount)) sizes)
    ∅

end Remove

end Tree

end SmetricRouter.PrefixTree
