import EventPayload.Action

/-!
# Friendbuy customers

What all calls share: the identity of a customer, where it stands in an event, where it goes in a
payload, and how a record that holds it is prepared.  The call that creates or updates a customer
profile is here as well.

* `Friendbuy.lookUp` — a directive that looks up a path.
* `Friendbuy.identity` — the directives for the customer fields under a part of the event.
* `Friendbuy.Placement` — the customer fields at the top of the payload, or in an object of it.
* `Friendbuy.customerRules` — the rules for the customer fields.
* `Friendbuy.trackCustomer` — the profile call.
-/

namespace EventPayload.Friendbuy

/-! ## Directives -/

/-- The directive that looks a path up. -/
def lookUp (path : String) : Json :=
  .obj [("@path", .str path)]

def lookUpAll (paths : List (String × String)) : Record :=
  paths.map fun entry => (entry.1, lookUp entry.2)

/-- The customer fields that stand under the same name in the traits or properties of an event. -/
def scopedFields : List String :=
  ["email", "isNewCustomer", "loyaltyStatus", "firstName", "lastName", "name", "age", "birthday",
    "friendbuyAttributes"]

/-- **The directives for a customer's identity.**  The identifiers stand at the root of the event,
the other fields in one part of it. -/
def identity (scope : String) : Record :=
  lookUpAll ([("customerId", "$.userId"), ("anonymousId", "$.anonymousId")]
    ++ scopedFields.map fun field => (field, "$." ++ scope ++ "." ++ field))

def language : Record :=
  lookUpAll [("language", "$.context.locale")]

/-! ## Rules -/

/-- **Where customer fields go.** -/
inductive Placement where
  | top
  | within (outer : String)

def Placement.slot (placement : Placement) (name : String) : Slot :=
  match placement with
  | top => .top name
  | within outer => .within outer name

/-- The rule for a field that keeps its name and value. -/
def Placement.keep (placement : Placement) (name : String) : Rule :=
  match placement with
  | top => .copy
  | within _ => .moveTo (placement.slot name)

def keptFields : List String :=
  ["anonymousId", "email", "isNewCustomer", "loyaltyStatus", "firstName", "lastName", "name",
    "language"]

/-- **The rules for the customer fields.** -/
def customerRules (placement : Placement) : List (String × Rule) :=
  (keptFields.map fun name => (name, placement.keep name))
    ++ [("customerId", .coerce (placement.slot "id") .text),
      ("age", .coerce (placement.slot "age") .integer),
      ("birthday", .coerce (placement.slot "birthday") .date)]

/-! ## Preparation -/

/-- The nested object whose entries count as fields of the payload. -/
def attributes : String := "friendbuyAttributes"

/-- The preparation of a record that holds a customer. -/
def prepareCustomer : List Preparation :=
  [.hoist attributes, .fillName]

/-! ## The profile call -/

def customerDirectives : Record :=
  identity "traits" ++ language
    ++ lookUpAll [("addressCountry", "$.traits.address.country"),
      ("addressState", "$.traits.address.state"),
      ("addressCity", "$.traits.address.city"),
      ("addressPostalCode", "$.traits.address.postalCode")]

def customerMapping : Mapping where
  rules := customerRules .top
    ++ [("addressCountry", .moveTo (.top "country")),
      ("addressState", .moveTo (.top "state")),
      ("addressCity", .moveTo (.top "city")),
      ("addressPostalCode", .coerce (some (.top "zipCode")) .text)]
  leftovers := .pass
  sound := by decide +kernel

/-- **The profile call** creates or updates a customer. -/
def trackCustomer : Action where
  name := "trackCustomer"
  directives := customerDirectives
  mapping := customerMapping
  eventName _ := .ok "customer"
  prepare := Preparation.runAll prepareCustomer

end EventPayload.Friendbuy
