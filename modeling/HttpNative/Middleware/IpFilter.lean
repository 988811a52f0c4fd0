import HttpNative.Library.Decimal
import Mathlib.Data.List.Forall2
import Mathlib.Tactic.ByContra

/-!
# The IP filter middleware

Lists of allowed and denied CIDR ranges are parsed when the middleware is made;
each request is let through or refused by the address of its client. Addresses
and masks are the 32 bits that JavaScript's shifts and masks work on.
-/

namespace HttpNative
namespace IpFilter

abbrev Address := BitVec 32

/-- A parsed range: the network's address and its mask. -/
structure Range where
  ip : Address
  mask : Address
deriving DecidableEq, Repr

def parseOctet (part : Text) : Option Address :=
  (Decimal.parseInt part).bind fun octet =>
    if octet < 0 ∨ octet > 255 then none else some (BitVec.ofInt 32 octet)

/-- One round of the loop over the four parts. -/
def appendOctet (result : Address) (part : Text) : Option Address :=
  (parseOctet part).map fun octet => result <<< 8 ||| octet

def parseIPv4 (ip : Text) : Option Address :=
  let parts := ip.splitOn '.'
  if parts.length ≠ 4 then none else parts.foldlM appendOctet 0

def prefixMask (prefixLength : Nat) : Address :=
  if prefixLength = 0 then 0 else BitVec.allOnes 32 <<< (32 - prefixLength)

/-- What stands before the first slash of a range. -/
def addressPart (cidr : Text) : Text :=
  (cidr.splitOn '/').headD []

/-- The number after the first slash; 32 when there is no slash. -/
def prefixPart (cidr : Text) : Option Int :=
  match (cidr.splitOn '/')[1]? with
  | some prefixText => Decimal.parseInt prefixText
  | none => some 32

/-- An error is the message of the `TypeError` that is thrown. -/
def parseCIDR (cidr : Text) : Except Text Range :=
  match parseIPv4 (addressPart cidr) with
  | none => .error (text "Invalid IP address in CIDR: \"" ++ cidr ++ text "\"")
  | some ip =>
      match prefixPart cidr with
      | none => .error (text "Invalid prefix length in CIDR: \"" ++ cidr ++ text "\"")
      | some prefixLength =>
          if prefixLength < 0 ∨ prefixLength > 32 then
            .error (text "Invalid prefix length in CIDR: \"" ++ cidr ++ text "\"")
          else
            let mask := prefixMask prefixLength.toNat
            .ok { ip := ip &&& mask, mask := mask }

def matchesCIDR (ip : Address) (range : Range) : Bool :=
  ip &&& range.mask == range.ip

def mappedPrefix : Text := text "::ffff:"

/-- The address of a client, also behind the prefix of an IPv4-mapped one. -/
def extractIPv4 (ip : Text) : Option Address :=
  if ip = [] then none
  else if mappedPrefix.isPrefixOf ip then parseIPv4 (ip.drop 7)
  else parseIPv4 ip

/-- The value of the option `onDenied`. -/
inductive DenialOption where
  | absent
  | function
  | other
deriving DecidableEq, Repr

structure Options where
  allow : Option (List Text)
  deny : Option (List Text)
  trustProxy : Bool
  onDenied : DenialOption

namespace Options

def allowList (options : Options) : List Text := options.allow.getD []

def denyList (options : Options) : List Text := options.deny.getD []

end Options

/-- A filter that was made has a range. -/
structure Filter where
  allowRanges : List Range
  denyRanges : List Range
  trustProxy : Bool
  onDenied : DenialOption
  ranged : ¬ (allowRanges = [] ∧ denyRanges = [])
deriving DecidableEq

def ipFilter (options : Options) : Except Text Filter := do
  let allowRanges ← options.allowList.mapM parseCIDR
  let denyRanges ← options.denyList.mapM parseCIDR
  if empty : allowRanges = [] ∧ denyRanges = [] then
    .error (text "ipFilter requires at least one allow or deny range")
  else
    .ok {
      allowRanges := allowRanges
      denyRanges := denyRanges
      trustProxy := options.trustProxy
      onDenied := options.onDenied
      ranged := empty }

/-- What the middleware reads off a request. -/
structure Request where
  ip : Text
  header : Text → Option Text

/-- What the middleware does with a request. -/
inductive Outcome where
  | next
  | onDenied
  | json (status : Nat) (error : Text)
deriving DecidableEq, Repr

namespace Filter

def clientIp (filter : Filter) (request : Request) : Text :=
  if filter.trustProxy then
    match request.header (text "x-forwarded-for") with
    | none | some [] => request.ip
    | some (char :: rest) => Text.trim (((char :: rest).splitOn ',').headD [])
  else
    request.ip

/-- The answer to a client that is not let through. -/
def denial (filter : Filter) : Outcome :=
  if filter.onDenied = .function then .onDenied else .json 403 (text "Forbidden")

def shouldDeny (filter : Filter) (ip : Address) : Bool :=
  let isDenied := filter.denyRanges.any (matchesCIDR ip)
  let isAllowed :=
    if filter.allowRanges.length > 0 then filter.allowRanges.any (matchesCIDR ip) else true
  (isDenied && !isAllowed) || (filter.allowRanges.length > 0 && !isAllowed)

def ipFilterMiddleware (filter : Filter) (request : Request) : Outcome :=
  match extractIPv4 (filter.clientIp request) with
  | none => filter.denial
  | some ip => if filter.shouldDeny ip then filter.denial else .next

end Filter

/-! ## Ranges -/

/-- Two addresses have the same first bits. -/
def SamePrefix (prefixLength : Nat) (left right : Address) : Prop :=
  ∀ index < prefixLength, left.getMsbD index = right.getMsbD index

instance (prefixLength : Nat) (left right : Address) :
    Decidable (SamePrefix prefixLength left right) := by
  unfold SamePrefix
  infer_instance

theorem getMsbD_prefixMask
    {prefixLength : Nat}
    (bounded : prefixLength ≤ 32)
    (index : Nat) :
    (prefixMask prefixLength).getMsbD index = decide (index < prefixLength) := by
  unfold prefixMask
  split
  · rename_i zero
    simp [zero]
  · rw [BitVec.getMsbD_shiftLeft, BitVec.getMsbD_allOnes]
    apply decide_eq_decide.mpr
    omega

/-- Masking keeps the first bits and clears the others. -/
theorem and_prefixMask_eq_iff
    {prefixLength : Nat}
    (bounded : prefixLength ≤ 32)
    (address network : Address) :
    address &&& prefixMask prefixLength = network &&& prefixMask prefixLength ↔
      SamePrefix prefixLength address network := by
  constructor
  · intro same index below
    have bits := congrArg (BitVec.getMsbD · index) same
    simpa [getMsbD_prefixMask bounded, below] using bits
  · intro same
    apply BitVec.eq_of_getMsbD_eq
    intro index _
    rw [BitVec.getMsbD_and, BitVec.getMsbD_and, getMsbD_prefixMask bounded]
    by_cases below : index < prefixLength
    · simp [same index below]
    · simp [below]

/-- The address and the length that the text of a range gives. -/
structure Writes (cidr : Text) (network : Address) (prefixLength : Nat) : Prop where
  address : parseIPv4 (addressPart cidr) = some network
  length : prefixPart cidr = some (prefixLength : Int)
  bounded : prefixLength ≤ 32

/-- An address lies in a range when its first bits are those of the network. -/
def InRange (address : Address) (cidr : Text) : Prop :=
  ∃ network prefixLength, Writes cidr network prefixLength ∧
    SamePrefix prefixLength address network

theorem Writes.unique
    {cidr : Text} {network otherNetwork : Address} {prefixLength otherLength : Nat}
    (one : Writes cidr network prefixLength)
    (other : Writes cidr otherNetwork otherLength) :
    network = otherNetwork ∧ prefixLength = otherLength := by
  have addresses := one.address.symm.trans other.address
  have lengths := one.length.symm.trans other.length
  simp only [Option.some.injEq] at addresses lengths
  exact ⟨addresses, by omega⟩

theorem Writes.parseCIDR
    {cidr : Text} {network : Address} {prefixLength : Nat}
    (writes : Writes cidr network prefixLength) :
    parseCIDR cidr =
      .ok { ip := network &&& prefixMask prefixLength, mask := prefixMask prefixLength } := by
  have bounded := writes.bounded
  simp only [IpFilter.parseCIDR, writes.address, writes.length, Int.toNat_natCast]
  rw [if_neg (by omega)]

/-- Only texts that write a range are accepted. -/
theorem writes_of_parseCIDR
    {cidr : Text} {range : Range}
    (parsed : parseCIDR cidr = .ok range) :
    ∃ network prefixLength, Writes cidr network prefixLength := by
  unfold parseCIDR at parsed
  split at parsed
  · cases parsed
  · rename_i network address
    split at parsed
    · cases parsed
    · rename_i prefixLength length
      split at parsed
      · cases parsed
      · rename_i bounded
        refine ⟨network, prefixLength.toNat, address, ?_, by omega⟩
        rw [length, Int.toNat_of_nonneg (by omega)]

theorem matchesCIDR_iff
    {cidr : Text} {range : Range}
    (parsed : parseCIDR cidr = .ok range)
    (address : Address) :
    matchesCIDR address range = true ↔ InRange address cidr := by
  obtain ⟨network, prefixLength, writes⟩ := writes_of_parseCIDR parsed
  rw [writes.parseCIDR] at parsed
  cases parsed
  rw [matchesCIDR, beq_iff_eq, and_prefixMask_eq_iff writes.bounded]
  constructor
  · intro same
    exact ⟨network, prefixLength, writes, same⟩
  · rintro ⟨otherNetwork, otherLength, others, same⟩
    obtain ⟨rfl, rfl⟩ := writes.unique others
    exact same

/-! ## Lists of ranges -/

theorem parsed_of_mapM
    {cidrs : List Text} {ranges : List Range}
    (parsed : cidrs.mapM parseCIDR = .ok ranges) :
    List.Forall₂ (fun cidr range => parseCIDR cidr = .ok range) cidrs ranges := by
  induction cidrs generalizing ranges with
  | nil =>
      cases parsed
      exact .nil
  | cons cidr rest hypothesis =>
      rw [List.mapM_cons] at parsed
      cases head : parseCIDR cidr with
      | error message => simp [head, bind, Except.bind] at parsed
      | ok range =>
          cases tail : rest.mapM parseCIDR with
          | error message => simp [head, tail, bind, Except.bind] at parsed
          | ok others =>
              simp only [head, tail, bind, Except.bind, pure, Except.pure] at parsed
              cases parsed
              exact .cons head (hypothesis tail)

/-- Some parsed range matches exactly when the address lies in a listed range. -/
theorem any_matchesCIDR_iff
    {cidrs : List Text} {ranges : List Range}
    (parsed : List.Forall₂ (fun cidr range => parseCIDR cidr = .ok range) cidrs ranges)
    (address : Address) :
    ranges.any (matchesCIDR address) = true ↔ ∃ cidr ∈ cidrs, InRange address cidr := by
  induction parsed with
  | nil => simp
  | cons head _ hypothesis =>
      rw [List.any_cons, Bool.or_eq_true, matchesCIDR_iff head, hypothesis]
      simp

/-- What a filter that was made holds of its options. -/
structure Made (options : Options) (filter : Filter) : Prop where
  allowed : List.Forall₂ (fun cidr range => parseCIDR cidr = .ok range)
    options.allowList filter.allowRanges
  denied : List.Forall₂ (fun cidr range => parseCIDR cidr = .ok range)
    options.denyList filter.denyRanges
  trustProxy : filter.trustProxy = options.trustProxy
  onDenied : filter.onDenied = options.onDenied

theorem made_of_ipFilter
    {options : Options} {filter : Filter}
    (accepted : ipFilter options = .ok filter) :
    Made options filter := by
  unfold ipFilter at accepted
  cases allowed : options.allowList.mapM parseCIDR with
  | error message => simp [allowed, bind, Except.bind] at accepted
  | ok allowRanges =>
      cases denied : options.denyList.mapM parseCIDR with
      | error message => simp [allowed, denied, bind, Except.bind] at accepted
      | ok denyRanges =>
          simp only [allowed, denied, bind, Except.bind] at accepted
          split at accepted
          · cases accepted
          · cases accepted
            exact {
              allowed := parsed_of_mapM allowed
              denied := parsed_of_mapM denied
              trustProxy := rfl
              onDenied := rfl }

/-! ## The decision -/

/-- The clients that a configuration is to let through: those of the allow
list or, when there is none, those outside the deny list. -/
def Permitted (options : Options) (address : Address) : Prop :=
  (options.allowList ≠ [] ∧ ∃ cidr ∈ options.allowList, InRange address cidr) ∨
    (options.allowList = [] ∧ ∀ cidr ∈ options.denyList, ¬ InRange address cidr)

/-- The middleware calls `next` for the permitted clients and refuses the
others. -/
def Decides
    (options : Options)
    (filter : Filter)
    (request : Request)
    (address : Address) : Prop :=
  (Permitted options address → filter.ipFilterMiddleware request = .next) ∧
    (¬ Permitted options address → filter.ipFilterMiddleware request = filter.denial)

theorem denial_ne_next
    (filter : Filter) :
    filter.denial ≠ .next := by
  unfold Filter.denial
  split <;> simp

/-- Without an allow list nobody is refused. -/
theorem shouldDeny_of_no_allow
    {options : Options} {filter : Filter}
    (made : Made options filter)
    (noAllow : options.allowList = [])
    (address : Address) :
    filter.shouldDeny address = false := by
  have noRanges : filter.allowRanges = [] := by
    have allowed := made.allowed
    rw [noAllow] at allowed
    exact List.forall₂_nil_left_iff.mp allowed
  simp [Filter.shouldDeny, noRanges]

/-- With an allow list exactly its clients are let through. -/
theorem shouldDeny_of_allow
    {options : Options} {filter : Filter}
    (made : Made options filter)
    (allow : options.allowList ≠ [])
    (address : Address) :
    filter.shouldDeny address = false ↔ ∃ cidr ∈ options.allowList, InRange address cidr := by
  have someRange : filter.allowRanges.length > 0 := by
    rw [← made.allowed.length_eq]
    exact List.length_pos_iff.mpr allow
  rw [← any_matchesCIDR_iff made.allowed]
  simp only [Filter.shouldDeny, someRange, if_true, decide_true, Bool.true_and]
  cases filter.allowRanges.any (matchesCIDR address) <;> simp

theorem ipFilterMiddleware_of_client
    {filter : Filter} {request : Request} {address : Address}
    (client : extractIPv4 (filter.clientIp request) = some address) :
    filter.ipFilterMiddleware request =
      if filter.shouldDeny address then filter.denial else .next := by
  simp only [Filter.ipFilterMiddleware, client]

/-- The filter decides as configured exactly when it has an allow list or the
client lies in no denied range. -/
theorem decides_iff
    {options : Options} {filter : Filter} {request : Request} {address : Address}
    (accepted : ipFilter options = .ok filter)
    (client : extractIPv4 (filter.clientIp request) = some address) :
    Decides options filter request address ↔
      (options.allowList ≠ [] ∨ ∀ cidr ∈ options.denyList, ¬ InRange address cidr) := by
  have made := made_of_ipFilter accepted
  have answer := ipFilterMiddleware_of_client client
  have refusal := denial_ne_next filter
  by_cases noAllow : options.allowList = []
  · rw [shouldDeny_of_no_allow made noAllow, if_neg (by simp)] at answer
    simp only [Decides, Permitted, noAllow, answer, ne_eq, not_true, false_and, false_or,
      true_and, implies_true]
    constructor
    · intro denies
      by_contra outside
      exact refusal (denies outside).symm
    · intro outside notOutside
      exact absurd outside notOutside
  · simp only [ne_eq, noAllow, not_false_eq_true, true_or, iff_true]
    have permitted : Permitted options address ↔ filter.shouldDeny address = false := by
      rw [shouldDeny_of_allow made noAllow]
      simp [Permitted, noAllow]
    rw [Decides, permitted, answer]
    constructor
    · intro allowed
      simp [allowed]
    · intro denied
      simp [Bool.not_eq_false _ ▸ denied]

/-! ## A deny list alone -/

/-- The address of four octets. -/
def quad (first second third fourth : BitVec 8) : Address :=
  first ++ second ++ third ++ fourth

/-- The configuration of the usage comment: deny one documentation range. -/
def denyOnly : Options where
  allow := none
  deny := some [text "203.0.113.0/24"]
  trustProxy := false
  onDenied := .absent

def deniedClient : Request where
  ip := text "203.0.113.5"
  header := fun _ => none

/-- A private network is allowed, everything else denied. -/
def privateOnly : Options where
  allow := some [text "10.0.0.0/8"]
  deny := some [text "0.0.0.0/0"]
  trustProxy := true
  onDenied := .function

def proxiedClient : Request where
  ip := text "192.0.2.1"
  header := fun name =>
    if name = text "x-forwarded-for" then some (text " ::ffff:10.1.2.3 , 192.0.2.9") else none

def denyOnlyFilter : Filter where
  allowRanges := []
  denyRanges := [⟨quad 203 0 113 0, prefixMask 24⟩]
  trustProxy := false
  onDenied := .absent
  ranged := by simp

def privateOnlyFilter : Filter where
  allowRanges := [⟨quad 10 0 0 0, prefixMask 8⟩]
  denyRanges := [⟨0, 0⟩]
  trustProxy := true
  onDenied := .function
  ranged := by simp

theorem decides_iff_private :
    Decides privateOnly privateOnlyFilter proxiedClient (quad 10 1 2 3) ↔
      (privateOnly.allowList ≠ [] ∨
        ∀ cidr ∈ privateOnly.denyList, ¬ InRange (quad 10 1 2 3) cidr) :=
  decides_iff (by decide) (by decide)

/-- The denied client of the usage comment is let through. -/
theorem not_decides_of_denyOnly :
    ¬ ∀ (options : Options) (filter : Filter) (request : Request) (address : Address),
      ipFilter options = .ok filter →
      extractIPv4 (filter.clientIp request) = some address →
      Decides options filter request address := by
  intro everywhere
  have decides := everywhere denyOnly denyOnlyFilter deniedClient (quad 203 0 113 5) (by decide)
    (by decide)
  have inRange : InRange (quad 203 0 113 5) (text "203.0.113.0/24") :=
    ⟨quad 203 0 113 0, 24, ⟨by decide, by decide, by decide⟩, by decide⟩
  have notPermitted : ¬ Permitted denyOnly (quad 203 0 113 5) := by
    rintro (⟨allowed, _⟩ | ⟨_, outside⟩)
    · exact allowed rfl
    · exact outside _ (List.mem_singleton.mpr rfl) inRange
  have refused := decides.2 notPermitted
  exact absurd refused (by decide)

end IpFilter
end HttpNative
