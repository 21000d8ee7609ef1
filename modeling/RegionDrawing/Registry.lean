import RegionDrawing.Drawer.BuiltIn
import RegionDrawing.Text.Printable

/-! # The registry of drawers

Drawers by id, each with a priority and a switch. Listings and lookups go by priority, then by
name; drawers that agree in both stand in the order in which their ids were first registered.
Every change is delivered to the subscribers as an event.
-/
namespace RegionDrawing

structure Registration (α : Type) where
  drawer : Drawer α
  /-- Lower comes first. -/
  priority : Int
  enabled : Bool

def defaultPriority : Int := 100

namespace Registration

variable {α : Type}

def id (r : Registration α) : String := r.drawer.info.id

def describeChar (c : Char) : List Char :=
  match c with
  | '"' => ['\\', '"']
  | '\\' => ['\\', '\\']
  | '\x00' => ['\\', '0']
  | '\t' => ['\\', 't']
  | '\n' => ['\\', 'n']
  | '\r' => ['\\', 'r']
  | c =>
    if isPrintable c then [c]
    else '\\' :: 'u' :: '{' :: Nat.toDigits 16 c.toNat ++ ['}']

def description (r : Registration α) : String :=
  let id := String.ofList (r.id.toList.flatMap describeChar)
  s!"DrawerRegistration \x7b id: \"{id}\", priority: {r.priority}, enabled: {r.enabled} \x7d"

def precedes (r s : Registration α) : Bool :=
  r.priority < s.priority ||
    (r.priority == s.priority && decide (r.drawer.info.name < s.drawer.info.name))

end Registration

inductive RegistryEvent where
  | registered (id : String) (replaced : Bool)
  | unregistered (id : String) (removed : Bool)
  | enabledChanged (id : String) (enabled : Bool)
  deriving DecidableEq, Repr

/-- A subscriber. It hears of every change and may answer the registration of a drawer, new or
replaced, by switching that drawer. -/
structure Subscriber where
  number : Nat
  /-- The switch set in answer to a registration, given whether it replaced another one. -/
  answer : Bool → Option Bool

/-- An event as a subscriber heard it, with the number of drawers registered at that moment. -/
structure Delivery where
  subscription : Nat
  event : RegistryEvent
  size : Nat
  deriving DecidableEq, Repr

structure Registry (α : Type) where
  /-- One registration per id, in the order in which the ids were first registered. -/
  entries : List (Registration α) := []
  subscribers : List Subscriber := []
  nextSubscription : Nat := 0

namespace Registry

variable {α : Type}

def registration? (registry : Registry α) (id : String) : Option (Registration α) :=
  registry.entries.find? fun r => r.id = id

def get? (registry : Registry α) (id : String) : Option (Drawer α) :=
  (registry.registration? id).map (·.drawer)

def contains (registry : Registry α) (id : String) : Bool := (registry.registration? id).isSome

def size (registry : Registry α) : Nat := registry.entries.length

/-- Puts a registration behind all that it does not precede. -/
def insertRanked (r : Registration α) : List (Registration α) → List (Registration α)
  | [] => [r]
  | s :: rest => if r.precedes s then r :: s :: rest else s :: insertRanked r rest

def all (registry : Registry α) : List (Registration α) :=
  registry.entries.foldl (fun ranked r => insertRanked r ranked) []

def enabled (registry : Registry α) : List (Drawer α) :=
  (registry.all.filter (·.enabled)).map (·.drawer)

def ofCategory (registry : Registry α) (category : DrawerCategory) : List (Drawer α) :=
  (registry.all.filter fun r => r.drawer.info.category = category).map (·.drawer)

/-- The first enabled drawer with a shortcut, where ASCII letters count regardless of case. -/
def ofShortcut? (registry : Registry α) (key : Char) : Option (Drawer α) :=
  registry.enabled.find? fun drawer => drawer.info.shortcut.toLower = key.toLower

/-- The better of the best registration so far and a further one. -/
def firstRanked (best : Option (Registration α)) (r : Registration α) :
    Option (Registration α) :=
  match best with
  | none => some r
  | some s => if r.precedes s then some r else some s

/-- The first drawer for a kind of shape. A disabled one counts too: it is no longer offered, but
the elements that it made are still painted and picked. -/
def drawerFor? (registry : Registry α) (kind : ShapeKind) : Option (Drawer α) :=
  ((registry.entries.filter fun r => r.drawer.info.kind = kind).foldl firstRanked none).map
    (·.drawer)

/-- The entries with a registration in the place of the one with its id, or at the end. -/
def putEntry (r : Registration α) : List (Registration α) → List (Registration α)
  | [] => [r]
  | s :: rest => if s.id = r.id then r :: rest else s :: putEntry r rest

def deliveries (registry : Registry α) (event : RegistryEvent) : List Delivery :=
  registry.subscribers.map fun subscriber => ⟨subscriber.number, event, registry.size⟩

def switched (registry : Registry α) (id : String) (enabled : Bool) : Registry α :=
  { registry with
    entries := registry.entries.map fun r => if r.id = id then { r with enabled } else r }

/-- Switches a drawer on or off; tells whether the id is registered. -/
def setEnabled (registry : Registry α) (id : String) (enabled : Bool) :
    Registry α × Bool × List Delivery :=
  if registry.contains id then
    let registry := registry.switched id enabled
    (registry, true, registry.deliveries (.enabledChanged id enabled))
  else (registry, false, [])

/-- Delivers a registration to one subscriber after another. The switch that a subscriber sets in
answer is itself delivered to all before the next one hears of the registration. -/
def announce (id : String) (replaced : Bool) :
    List Subscriber → Registry α → Registry α × List Delivery
  | [], registry => (registry, [])
  | subscriber :: rest, registry =>
    let heard : Delivery := ⟨subscriber.number, .registered id replaced, registry.size⟩
    match subscriber.answer replaced with
    | none =>
      let (registry, further) := announce id replaced rest registry
      (registry, heard :: further)
    | some enabled =>
      let (registry, _, answered) := registry.setEnabled id enabled
      let (registry, further) := announce id replaced rest registry
      (registry, heard :: answered ++ further)

/-- Registers a drawer under its id; tells whether it took the place of another one. -/
def register (registry : Registry α) (r : Registration α) : Registry α × Bool × List Delivery :=
  let replaced := registry.contains r.id
  let registry := { registry with entries := putEntry r registry.entries }
  let (registry, delivered) := announce r.id replaced registry.subscribers registry
  (registry, replaced, delivered)

/-- Removes a drawer; tells whether it was there. Subscribers hear of it in any case. -/
def unregister (registry : Registry α) (id : String) : Registry α × Bool × List Delivery :=
  let removed := registry.contains id
  let registry := { registry with entries := registry.entries.filter fun r => r.id ≠ id }
  (registry, removed, registry.deliveries (.unregistered id removed))

/-- Adds a subscriber and gives the number of its subscription. -/
def subscribe (registry : Registry α) (answer : Bool → Option Bool) : Registry α × Nat :=
  let number := registry.nextSubscription
  ({ registry with
      subscribers := registry.subscribers ++ [⟨number, answer⟩]
      nextSubscription := number + 1 }, number)

def unsubscribe (registry : Registry α) (number : Nat) : Registry α :=
  { registry with subscribers := registry.subscribers.filter fun s => s.number ≠ number }

def builtInPriority : ShapeKind → Int
  | .rect => 10
  | .polygon => 20
  | .path => 30
  | .box => 40

def builtIn [Scalar α] (settings : Settings α) : Registry α :=
  { entries := ShapeKind.all.map fun kind =>
      ⟨builtInDrawer kind settings, builtInPriority kind, true⟩ }

end Registry

end RegionDrawing
