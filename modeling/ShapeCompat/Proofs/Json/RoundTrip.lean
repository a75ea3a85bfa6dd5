import ShapeCompat.Json.Decoding

/-!
Encodings that can be read back. A member gives its value back wherever it is in its record, as long
as no other member has its name, and a member that is left out gives the value that the reading puts
in its place.
-/

namespace ShapeCompat.Json

namespace Members

/-- No member has the name. -/
def Lacks (members : Members) (name : String) : Prop := members.filter (·.1 == name) = []

theorem named_otherwise {members : Members} {name : String} (lacks : members.Lacks name) :
    ∀ member ∈ members, (member.1 != name) = true := by
  intro member listed
  have different := List.filter_eq_nil_iff.mp lacks member listed
  rw [beq_iff_eq] at different
  exact bne_iff_ne.mpr different

section Lacking

variable {key name : String}

theorem lacks_nil (name : String) : Lacks [] name := rfl

@[simp] theorem lacks_append (first rest : Members) (name : String) :
    Lacks (first ++ rest) name ↔ first.Lacks name ∧ rest.Lacks name := by
  rw [Lacks, List.filter_append, List.append_eq_nil_iff]
  rfl

@[simp] theorem lacks_member (value : Json) : (member key value).Lacks name ↔ key ≠ name := by
  simp [Lacks, member]

@[simp] theorem lacks_optional_member {Value : Type} (encode : Value → Json) (value : Option Value)
    (different : key ≠ name) : (optionalMember key encode value).Lacks name := by
  cases value with
  | none => rfl
  | some value => exact (lacks_member (encode value)).mpr different

@[simp] theorem lacks_list_member {Value : Type} (encode : Value → Json) (values : List Value) :
    (listMember key encode values).Lacks name ↔ key ≠ name := lacks_member _

/-- A member that may have been left out. -/
theorem lacks_written {members : Members} {value : Json}
    (written : members = [] ∨ members = member key value) (different : key ≠ name) :
    members.Lacks name := by
  rcases written with rfl | rfl
  · exact lacks_nil name
  · exact (lacks_member value).mpr different

theorem texts_member_cases (name : String) (values : List String) :
    values = [] ∧ textsMember name values = [] ∨
      textsMember name values = member name (.texts values) := by
  unfold textsMember
  split
  · rename_i empty
    exact .inl ⟨empty, rfl⟩
  · exact .inr rfl

@[simp] theorem lacks_texts_member (values : List String) (different : key ≠ name) :
    (textsMember key values).Lacks name :=
  lacks_written ((texts_member_cases key values).imp_left And.right) different

end Lacking

section Reading

variable {Value : Type} {first rest : Members} {name : String} (decode : Json → Option Value)
  (fallback : Value)

theorem find_append_left (lacks : rest.Lacks name) :
    find? (first ++ rest) name = first.find? name := by
  rw [find?, List.filter_append, lacks, List.append_nil]
  rfl

theorem find_append_right (lacks : first.Lacks name) :
    find? (first ++ rest) name = rest.find? name := by
  rw [find?, List.filter_append, lacks, List.nil_append]
  rfl

-- What lies before is passed over first, which asks about one member at a time; all that lies behind
-- is looked through only once.
@[simp low] theorem required_append_left (lacks : rest.Lacks name) :
    required? (first ++ rest) name decode = first.required? name decode := by
  rw [required?, find_append_left lacks, required?]

@[simp] theorem required_append_right (lacks : first.Lacks name) :
    required? (first ++ rest) name decode = rest.required? name decode := by
  rw [required?, find_append_right lacks, required?]

@[simp low] theorem fallback_append_left (lacks : rest.Lacks name) :
    withFallback? (first ++ rest) name fallback decode =
      first.withFallback? name fallback decode := by
  rw [withFallback?, find_append_left lacks, withFallback?]

@[simp] theorem fallback_append_right (lacks : first.Lacks name) :
    withFallback? (first ++ rest) name fallback decode =
      rest.withFallback? name fallback decode := by
  rw [withFallback?, find_append_right lacks, withFallback?]

@[simp low] theorem optional_append_left (lacks : rest.Lacks name) :
    optional? (first ++ rest) name decode = first.optional? name decode := by
  rw [optional?, find_append_left lacks, optional?]

@[simp] theorem optional_append_right (lacks : first.Lacks name) :
    optional? (first ++ rest) name decode = rest.optional? name decode := by
  rw [optional?, find_append_right lacks, optional?]

end Reading

end Members

theorem find_member (name : String) (value : Json) :
    (member name value).find? name = some (some value) := by
  simp [Members.find?, member]

-- Unlike `Option.bind_some` the next two do not hold by computation alone, so a proof that rewrites
-- with them never has the kernel run a reading, digit by digit where it compares numbers.
@[simp] theorem read_some {Value Result : Type} (value : Value) (read : Value → Option Result) :
    (some value >>= read) = read value := by
  rw [Option.bind_eq_bind, Option.bind_some]

@[simp] theorem members_of_record {Value : Type} (names : List String) (members : Members)
    (read : Members → Option Value) : (members? names (.record members) >>= read) = read members := by
  rw [members?, Option.bind_eq_bind, Option.bind_some]

@[simp] theorem tagged_of_record {Value : Type} {tag : String} {rest : Members} (name : String)
    (read : String × Json → Option Value) (lacks : rest.Lacks tag) :
    (tagged? tag (.record (member tag (.text name) ++ rest)) >>= read) =
      read (name, .record rest) := by
  have own : (member tag (.text name) ++ rest).filter (·.1 == tag) = [(tag, .text name)] := by
    rw [List.filter_append, lacks, List.append_nil]
    simp [member]
  have others : (member tag (.text name) ++ rest).filter (·.1 != tag) = rest := by
    rw [List.filter_append, List.filter_eq_self.mpr (Members.named_otherwise lacks)]
    simp [member]
  unfold tagged?
  dsimp only
  rw [own, others, Option.bind_eq_bind, Option.bind_some]

@[simp] theorem tagged_of_tag {Value : Type} (tag name : String)
    (read : String × Json → Option Value) :
    (tagged? tag (.record (member tag (.text name))) >>= read) = read (name, .record []) := by
  rw [← List.append_nil (member tag (.text name)), tagged_of_record name read (Members.lacks_nil tag)]

/-- What is encoded is read back, and is never the null that stands for no value. -/
structure RoundTrips {Value : Type} (encode : Value → Json) (decode : Json → Option Value) :
    Prop where
  recovers : ∀ value, decode (encode value) = some value
  nonNull : ∀ value, encode value ≠ .null

namespace RoundTrips

theorem text : RoundTrips Json.text text? := ⟨fun _ => rfl, nofun⟩

theorem bool : RoundTrips Json.bool bool? := ⟨fun _ => rfl, nofun⟩

theorem nat : RoundTrips (fun value : Nat => .int value) nat? := ⟨fun _ => rfl, nofun⟩

theorem uint32 : RoundTrips (fun value : UInt32 => .int value.toNat) uint32? where
  recovers := by
    intro value
    have bound := value.toNat_lt
    unfold uint32?
    dsimp only
    rw [if_pos (by unfold UInt32.size; omega)]
    simp
  nonNull := nofun

theorem int64 : RoundTrips (fun value : Int64 => .int value.toInt) int64? where
  recovers := by
    intro value
    unfold int64?
    dsimp only
    rw [if_pos ⟨value.minValue_le_toInt, value.toInt_le⟩]
    simp
  nonNull := nofun

/-- A name that the value is found by. -/
theorem named {Value : Type} {name : Value → String} {ofName? : String → Option Value}
    (found : ∀ value, ofName? (name value) = some value) :
    RoundTrips (fun value => .text (name value)) (fun json => json.choice?.bind ofName?) :=
  ⟨found, nofun⟩

variable {Value : Type} {encode : Value → Json} {decode : Json → Option Value}

/-- Members that the value is made from. -/
theorem ofMembers {write : Value → Members}
    (read : ∀ value, decode (.record (write value)) = some value) :
    RoundTrips (fun value => .record (write value)) decode :=
  ⟨read, fun _ => Json.noConfusion⟩

theorem list (trips : RoundTrips encode decode) :
    RoundTrips (fun values : List Value => .list (values.map encode)) (listOf? decode) where
  recovers := by
    intro values
    unfold listOf?
    dsimp only
    induction values with
    | nil => rfl
    | cons value rest induction =>
        rw [List.map_cons, List.mapM_cons, trips.recovers, induction]
        rfl
  nonNull := nofun

theorem texts : RoundTrips Json.texts texts? := text.list

theorem required (trips : RoundTrips encode decode) (name : String) (value : Value) :
    (member name (encode value)).required? name decode = some value := by
  rw [Members.required?, find_member]
  exact trips.recovers value

theorem withFallback (trips : RoundTrips encode decode) (name : String) (fallback value : Value) :
    (member name (encode value)).withFallback? name fallback decode = some value := by
  rw [Members.withFallback?, find_member]
  exact trips.recovers value

theorem requiredList (trips : RoundTrips encode decode) (name : String) (values : List Value) :
    (listMember name encode values).required? name (listOf? decode) = some values :=
  trips.list.required name values

theorem listWithFallback (trips : RoundTrips encode decode) (name : String)
    (fallback values : List Value) :
    (listMember name encode values).withFallback? name fallback (listOf? decode) = some values :=
  trips.list.withFallback name fallback values

/-- A value that is left out where it is the one that its absence stands for. -/
theorem leftOut (trips : RoundTrips encode decode) {members : Members} {name : String}
    {fallback value : Value}
    (written : value = fallback ∧ members = [] ∨ members = member name (encode value)) :
    members.withFallback? name fallback decode = some value := by
  rcases written with ⟨rfl, rfl⟩ | rfl
  · rfl
  · exact trips.withFallback name fallback value

theorem optional (trips : RoundTrips encode decode) (name : String) (value : Option Value) :
    (optionalMember name encode value).optional? name decode = some value := by
  cases value with
  | none => rfl
  | some value =>
      have recovered := trips.recovers value
      have present := trips.nonNull value
      change (member name (encode value)).optional? name decode = some (some value)
      rw [Members.optional?, find_member]
      generalize encode value = json at recovered present ⊢
      cases json with
      | null => exact (present rfl).elim
      | _ => exact congrArg (Option.map some) recovered

end RoundTrips

@[simp] theorem texts_left_out (name : String) (values : List String) :
    (textsMember name values).withFallback? name [] texts? = some values :=
  RoundTrips.texts.leftOut (Members.texts_member_cases name values)

end ShapeCompat.Json
