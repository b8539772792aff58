import CreationGate.Governance.Event
import CreationGate.Governance.Genesis
import CreationGate.Json.Fixed
import CreationGate.Json.Ignored

/-!
# Governance values as JSON

Readers and writers of accounts, origins, events, registries that are sets, and genesis
configurations.  Each value has one written form; readers accept more.
-/

namespace CreationGate

namespace Json

open Reader

/-! ## Writing -/

/-- A text in quotes; it must need no escapes. -/
def writeName (name : Bytes) : Bytes := 34 :: name ++ [34]

/-- Bytes of fixed length in quotes, as digits behind the marker. -/
def writeFixed {n : Nat} (bytes : FixedBytes n) : Bytes :=
  writeName (hexMarker ++ Hex.encode bytes.bytes)

/-- Items in brackets. -/
def writeList (items : List Bytes) : Bytes :=
  91 :: (items.intersperse [44]).flatten ++ [93]

/-- Fields in braces, in the order given. -/
def writeObject (fields : List (Bytes × Bytes)) : Bytes :=
  let items := fields.map fun field => writeName field.1 ++ 58 :: field.2
  123 :: (items.intersperse [44]).flatten ++ [125]

/-! ## Variants -/

/-- The variant with a name. -/
def variantOf {α : Type} (variants : List (String × α)) (name : Bytes) : Except Cause α :=
  match variants.find? fun v => Bytes.ofAscii v.1 == name with
  | some v => .ok v.2
  | none => .error (.unknownVariant (textOf name) (variants.map (·.1)))

/-- Reads the name of a variant. -/
def readVariant {α : Type} (variants : List (String × α)) : Reader α := placed do
  ofExcept (variantOf variants (← readName))

/-- Reads a variant: its bare name, or an object with its name and what it carries. -/
def readTagged {α β : Type} (variants : List (String × α)) (bare : α → Reader β)
    (body : α → Reader β) : Reader β := do
  let b ← tokenIn .eofInValue
  if b = 123 then
    skip
    let b ← tokenIn .eofInObject
    if b = 34 then
      let variant ← readVariant variants
      readColon
      let value ← body variant
      let b ← tokenIn .eofInObject
      if b = 125 then
        skip
        return value
      else fail .expectedValue
    else if b = 125 then failNext .expectedValue
    else failNext .keyMustBeString
  else if b = 34 then bare (← readVariant variants)
  else failNext .expectedValue

/-! ## Accounts and registries -/

/-- Reads an account: digits in quotes or a list of bytes. -/
def readAccount : Reader Account := readFixed 32

/-- Reads an address: digits in quotes or a list of bytes. -/
def readAddress : Reader Address := readFixed 20

/-- Reads a list of accounts as a set; neither order nor repetitions matter. -/
def readAccountSet : Reader AccountSet := do
  return AccountSet.ofList (← readListOf readAccount)

/-- Writes a set of accounts, in ascending order. -/
def writeAccountSet (set : AccountSet) : Bytes := writeList (set.keys.map writeFixed)

/-! ## Origins -/

/-- The forms of an origin. -/
inductive OriginVariant where
  | root
  | signed
  | unsigned

/-- The forms of an origin by their names. -/
def originVariants : List (String × OriginVariant) :=
  [("Root", .root), ("Signed", .signed), ("None", .unsigned)]

/-- Reads the body of a form that carries nothing. -/
def readNull : Reader Unit := placed do
  let b ← tokenIn .eofInValue
  if b = 110 then
    skip
    readRest [117, 108, 108]
  else refuse .unit

/-- Reads an origin.  A form that carries nothing may be written with or without a body. -/
def readOrigin : Reader Origin :=
  readTagged originVariants
    (fun
      | .root => return .root
      | .signed => reject (.invalidType .unitVariant .newtypeVariant)
      | .unsigned => return .unsigned)
    (fun
      | .root => do
        readNull
        return .root
      | .signed => return .signed (← readAccount)
      | .unsigned => do
        readNull
        return .unsigned)

/-- Writes an origin, without a body where nothing is carried. -/
def writeOrigin : Origin → Bytes
  | .root => writeName (Bytes.ofAscii "Root")
  | .signed signer => writeObject [(Bytes.ofAscii "Signed", writeFixed signer)]
  | .unsigned => writeName (Bytes.ofAscii "None")

/-! ## Events -/

/-- The forms of an event. -/
inductive EventVariant where
  | authorized
  | revoked

namespace EventVariant

/-- The name of an event's form in messages. -/
def text : EventVariant → String
  | authorized => "DeployerAuthorized"
  | revoked => "DeployerRevoked"

/-- The event of a form. -/
def event : EventVariant → Account → Event
  | authorized => .authorized
  | revoked => .revoked

end EventVariant

/-- The forms of an event by their names. -/
def eventVariants : List (String × EventVariant) :=
  [("deployerAuthorized", .authorized), ("deployerRevoked", .revoked)]

/-- The field of an event's body. -/
def deployerField : String := "deployer"

/-- Reads a field of an event's body; other fields are ignored. -/
def readEventField (state : Option Account) (name : Bytes) : Reader (Option Account) :=
  if name = Bytes.ofAscii deployerField then
    match state with
    | some _ => reject (.duplicateField deployerField)
    | none => do
      readColon
      some <$> readAccount
  else do
    readColon
    skipValue
    return state

/-- Reads the fields of an event's body, among them the one that it must have. -/
def readEventFields : Reader Account := do
  match ← (fun s => readFields readEventField (s.length + 1) true none s : Reader _) with
  | some account => return account
  | none => reject (.missingField deployerField)

/-- Reads the body of an event: an object, or a list with one element. -/
def readEventBody (variant : EventVariant) : Reader Account := placed do
  let b ← tokenIn .eofInValue
  if b = 91 then
    inList do
      match ← readElement? true readAccount with
      | some account => return account
      | none => reject (.invalidLength 0 (.eventElement variant.text))
  else if b = 123 then inObject readEventFields
  else refuse (.eventBody variant.text)

/-- Reads an event, which always carries a body. -/
def readEvent : Reader Event :=
  readTagged eventVariants
    (fun _ => reject (.invalidType .unitVariant .structVariant))
    (fun variant => return variant.event (← readEventBody variant))

/-- Writes an event under the name of its form. -/
def writeEventAs (name : String) (deployer : Account) : Bytes :=
  writeObject [(Bytes.ofAscii name,
    writeObject [(Bytes.ofAscii deployerField, writeFixed deployer)])]

/-- Writes an event. -/
def writeEvent : Event → Bytes
  | .authorized deployer => writeEventAs "deployerAuthorized" deployer
  | .revoked deployer => writeEventAs "deployerRevoked" deployer

/-! ## Genesis configurations -/

/-- The field with the accounts. -/
def deployersField : String := "authorizedDeployers"

/-- The field with the addresses. -/
def addressesField : String := "authorizedAddresses"

/-- The fields of a genesis configuration read so far. -/
structure GenesisFields where
  deployers : Option (List Account) := none
  addresses : Option (List Address) := none

/-- The configuration with the fields read; missing ones are empty. -/
def GenesisFields.genesis (fields : GenesisFields) : Genesis :=
  ⟨fields.deployers.getD [], fields.addresses.getD []⟩

/-- Reads a field of a genesis configuration; there are no others, and none comes twice. -/
def readGenesisField (state : GenesisFields) (name : Bytes) : Reader GenesisFields :=
  if name = Bytes.ofAscii deployersField then
    match state.deployers with
    | some _ => reject (.duplicateField deployersField)
    | none => do
      readColon
      return { state with deployers := some (← readListOf readAccount) }
  else if name = Bytes.ofAscii addressesField then
    match state.addresses with
    | some _ => reject (.duplicateField addressesField)
    | none => do
      readColon
      return { state with addresses := some (← readListOf readAddress) }
  else reject (.unknownField (textOf name) [deployersField, addressesField])

/-- Reads the fields of a genesis configuration, of which any may be missing. -/
def readGenesisFields : Reader Genesis := do
  return (← (fun s => readFields readGenesisField (s.length + 1) true {} s : Reader _)).genesis

/-- Reads a genesis configuration from the elements of a list, of which any may be missing. -/
def readGenesisElements : Reader Genesis := do
  match ← readElement? true (readListOf readAccount) with
  | none => return ⟨[], []⟩
  | some deployers =>
    match ← readElement? false (readListOf readAddress) with
    | none => return ⟨deployers, []⟩
    | some addresses => return ⟨deployers, addresses⟩

/-- Reads a genesis configuration: an object, or a list of the values of its fields. -/
def readGenesis : Reader Genesis := placed do
  let b ← tokenIn .eofInValue
  if b = 91 then inList readGenesisElements
  else if b = 123 then inObject readGenesisFields
  else refuse .genesis

/-- Writes a genesis configuration, empty fields too. -/
def writeGenesis (genesis : Genesis) : Bytes :=
  writeObject [(Bytes.ofAscii deployersField, writeList (genesis.deployers.map writeFixed)),
    (Bytes.ofAscii addressesField, writeList (genesis.addresses.map writeFixed))]

end Json

/-- The message for a genesis text that cannot be read. -/
def Genesis.faultMessage (fault : Json.Fault) (text : Bytes) : String :=
  "Failed to parse genesis config: " ++ fault.message text

end CreationGate
