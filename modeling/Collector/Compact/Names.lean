import Collector.Compact.Node
import Collector.Script.Parser

/-!
# Naming variables

Short names for the variables of a function. Variables that are never alive at the same place
share a slot, and every slot gets a name. Slots are given out from the outside to the inside, in
the order of declarations. Slots that are used more often get shorter names, and among names of
one length earlier slots get earlier ones.
-/

namespace Collector.Compact

/-! ## Scopes -/

/-- What a walk over a tree finds: its scopes, and where variables are declared and used. -/
structure Survey where
  /-- The scope around each scope, from the first one on. The first is around itself. -/
  parents : Array Nat
  /-- Variables with the scopes that they belong to, in the order of their declarations. -/
  declared : Array (Nat × Nat)
  /-- Variables with the scopes that they are mentioned in. -/
  mentions : Array (Nat × Nat)
  /-- The variables of all uses. -/
  uses : Array Nat
  /-- Outer names with the scopes that they are used in. -/
  outer : Array (String × Nat)

/-- Where a walk stands. -/
structure Position where
  scope : Nat
  /-- The scope of the function around. -/
  functionScope : Nat
  /-- The scope that declarations belong to. -/
  home : Nat

/-- A step of a walk. -/
abbrev Walk := StateM Survey Unit

/-- Opens a scope. -/
def openScope (parent : Nat) : StateM Survey Nat := fun s =>
  (s.parents.size, { s with parents := s.parents.push parent })

/-- Notes the declaration of a variable. -/
def noteBinding (here : Position) (id : Nat) : Walk := modify fun s =>
  { s with
    declared := if s.declared.any fun entry => entry.1 == id then s.declared
      else s.declared.push (id, here.home)
    mentions := s.mentions.push (id, here.scope) }

/-- Notes a use of a variable. -/
def noteUse (here : Position) (id : Nat) : Walk := modify fun s =>
  { s with mentions := s.mentions.push (id, here.scope), uses := s.uses.push id }

/-- Whether a kind of node opens a scope for its parts. -/
def opensScope : Kind → Bool
  | .function _ | .classOf | .block | .loop | .forIn | .forOf _ | .switch | .staticBlock => true
  | _ => false

/-- Whether a kind of node opens a scope for the declarations of a function. -/
def opensFunction : Kind → Bool
  | .function _ | .staticBlock => true
  | _ => false

/-- The position inside a node. -/
def inside (here : Position) (kind : Kind) : StateM Survey Position := do
  if opensScope kind then
    let scope ← openScope here.scope
    return ⟨scope, if opensFunction kind then scope else here.functionScope, scope⟩
  else
    match kind with
    | .declare .var => return { here with home := here.functionScope }
    | .declare _ => return { here with home := here.scope }
    | _ => return here

mutual

/-- Walks over a tree. -/
def survey (here : Position) : Node → Walk
  | .node kind parts => do
    match kind, parts with
    | .bind id, _ => noteBinding here id
    | .read id, _ => noteUse here id
    | .store id, _ => noteUse here id
    | .outer name, _ => modify fun s => { s with outer := s.outer.push (name, here.scope) }
    | .functionDeclaration, [.node inner (name :: rest)] =>
      survey { here with home := here.scope } name
      surveyAll (← inside here inner) rest
    | .classDeclaration, [.node inner (name :: rest)] =>
      survey { here with home := here.scope } name
      surveyAll (← inside here inner) rest
    | .try, [block, param, handler, finalizer] =>
      survey here block
      let scope ← openScope here.scope
      let caught : Position := ⟨scope, here.functionScope, scope⟩
      survey caught param
      survey caught handler
      survey here finalizer
    | kind, parts => surveyAll (← inside here kind) parts

/-- Walks over several trees. -/
def surveyAll (here : Position) : List Node → Walk
  | [] => pure ()
  | n :: rest => do
    survey here n
    surveyAll here rest

end

/-- What a walk over a function finds, its own name left out. The function is the second scope. -/
def surveyOf (function : Node) : Survey :=
  let walk : Walk := do
    surveyAll (← inside ⟨0, 0, 0⟩ function.kind) (function.parts.drop 1)
  walk.run ⟨#[0], #[], #[], #[], #[]⟩ |>.2

/-! ## Slots -/

/-- The scopes from one scope outwards up to another, that one not included. -/
def scopesUpTo (parents : Array Nat) (stop : Nat) : Nat → Nat → List Nat
  | 0, _ => []
  | steps + 1, scope =>
    if scope == stop then [] else scope :: scopesUpTo parents stop steps (parents.getD scope 0)

/-- The scopes in which a variable of a scope is alive. -/
def liveScopes (s : Survey) (home : Nat) (mentions : List Nat) : List Nat :=
  home :: mentions.flatMap fun scope => scopesUpTo s.parents home s.parents.size scope

/-- Slots so far: for each one the scopes in which it is taken, and the slots of variables. -/
structure Slots where
  taken : Array (List Nat)
  given : Array (Nat × Nat)

/-- The numbers of slots that are free in a scope, and of as many new ones as are needed. -/
def Slots.free (slots : Slots) (scope count : Nat) : List Nat :=
  let unused := (List.range slots.taken.size).filter fun slot =>
    !(slots.taken.getD slot []).contains scope
  let reused := unused.take count
  reused ++ (List.range (count - reused.length)).map (slots.taken.size + ·)

/-- Gives a slot to a variable. -/
def Slots.give (slots : Slots) (id slot : Nat) (scopes : List Nat) : Slots :=
  { taken :=
      if slot < slots.taken.size then slots.taken.modify slot (· ++ scopes)
      else slots.taken.push scopes
    given := slots.given.push (id, slot) }

/-- Gives slots to the variables of a scope. -/
def Slots.giveScope (s : Survey) (slots : Slots) (scope : Nat) : Slots :=
  let ids := (s.declared.filter fun entry => entry.2 == scope).toList.map Prod.fst
  let free := slots.free scope ids.length
  (ids.zip free).foldl (fun slots (id, slot) =>
    let mentions := (s.mentions.filter fun entry => entry.1 == id).toList.map Prod.snd
    slots.give id slot (liveScopes s scope mentions)) slots

/-- The slots of all variables. The first slot belongs to the function itself, wherever it is
used. -/
def slotsOf (s : Survey) (own : String) : Slots :=
  let ownScopes := (s.outer.filter fun entry => entry.1 == own).toList.map Prod.snd
  (List.range s.parents.size).foldl (Slots.giveScope s) ⟨#[liveScopes s 0 ownScopes], #[]⟩

/-! ## Names -/

/-- Characters in the order in which names are made of them. Names begin with no digit. -/
def nameCharacters : Array Char :=
  "etnriaoscludfpmhg_vybxSCwTEDOkAjMNPFILRzBVHUWGKqJYXZQ$1024368579".toList.toArray

/-- The characters of a name behind the first one, for a number. -/
def nameTail : Nat → Nat → List Char
  | 0, _ => []
  | _, 0 => []
  | steps + 1, n =>
    nameCharacters.getD ((n - 1) % 64) 'e' :: nameTail steps ((n - 1) / 64)

/-- The name with a number. Shorter names come first. -/
def nameAt (n : Nat) : String :=
  String.ofList (nameCharacters.getD (n % 54) 'e' :: nameTail n (n / 54))

/-- Words that name no variable. -/
def avoidedWords : List String :=
  Script.reservedWords ++
    ["let", "static", "yield", "await", "implements", "interface", "package", "private",
      "protected", "public", "arguments", "exports", "eval"]

/-- The first names from a number on that are not avoided. -/
def firstNames (avoided : List String) : Nat → Nat → Nat → List String
  | 0, _, _ => []
  | _, 0, _ => []
  | steps + 1, count + 1, n =>
    let name := nameAt n
    if avoided.contains name then firstNames avoided steps (count + 1) (n + 1)
    else name :: firstNames avoided steps count (n + 1)

/-- Gives names to slots, which stand in falling order of use: names of one length to as many
slots, and among these in the order of the slots. -/
def giveNames : Nat → List String → List Nat → List (Nat × String)
  | 0, _, _ => []
  | _, [], _ => []
  | steps + 1, name :: names, slots =>
    let group := (name :: names).takeWhile fun other => other.length == name.length
    let chosen := (slots.take group.length).mergeSort
    chosen.zip group ++
      giveNames steps ((name :: names).drop group.length) (slots.drop group.length)

/-- The names of variables. -/
structure Naming where
  names : List (Nat × String)

/-- The name of a variable. -/
def Naming.name (naming : Naming) (id : Nat) : String := (naming.names.lookup id).getD ""

/-- Names the variables of a function. -/
def Naming.of (own : String) (function : Node) : Naming :=
  let s := surveyOf function
  let slots := slotsOf s own
  let count := slots.taken.size
  let avoided := avoidedWords ++ [own] ++ (s.outer.toList.map Prod.fst).eraseDups
  let uses (slot : Nat) : Nat :=
    (slots.given.toList.filter fun entry => entry.2 == slot).foldl
      (fun sum entry => sum + s.uses.toList.count entry.1) 0
  let order := ((List.range count).map fun slot => (slot, uses slot)).mergeSort
    fun a b => decide (b.2 ≤ a.2)
  let named := giveNames (count + 1) (firstNames avoided (count + avoided.length) count 0)
    (order.map Prod.fst)
  ⟨slots.given.toList.map fun (id, slot) => (id, (named.lookup slot).getD "")⟩

end Collector.Compact
