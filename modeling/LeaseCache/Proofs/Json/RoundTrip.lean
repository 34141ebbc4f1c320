import LeaseCache.Proofs.Json.Scanning

/-!
# A printed value is read back

A plain value is made of words, whole numbers and texts by arrays and objects. Its text has
one token for each of its parts and no blanks between them (`Json.tokens`). These tokens are
found in the text, whatever follows it that does not continue a number
(`Plain.scans_print`), and they are put together to the value again, whatever tokens follow
(`Plain.parseValue_tokens`). So the text of a plain value is read as the value
(`Plain.parse?_print`).

Both facts are proved by induction on the value, and for the parts of an array or an object
by an induction on their list that ends with the last part.
-/

set_option autoImplicit false

namespace LeaseCache.Json

/-- A value whose numbers are whole numbers and whose strings are texts. -/
inductive Plain : Json → Prop where
  | null : Plain .null
  | bool (value : Bool) : Plain (.bool value)
  | number (value : Nat) : Plain (.ofNat value)
  | string (text : String) : Plain (.ofText text)
  | array {items : List Json} (each : ∀ item ∈ items, Plain item) : Plain (.array items)
  | object {members : List (List UInt8 × Json)}
      (named : ∀ member ∈ members, ∃ name, member.1 = contentOfText name)
      (each : ∀ member ∈ members, Plain member.2) : Plain (.object members)

mutual

/-- The tokens of a value. -/
def tokens : Json → List Token
  | null => [.null]
  | bool value => [.bool value]
  | number literal => [.number literal]
  | string content => [.string content]
  | array items => .beginArray :: itemTokens items
  | object members => .beginObject :: memberTokens members

/-- The tokens of the items of an array, and of its end. -/
def itemTokens : List Json → List Token
  | [] => [.endArray]
  | [item] => tokens item ++ [.endArray]
  | item :: rest => tokens item ++ .comma :: itemTokens rest

/-- The tokens of the members of an object, and of its end. -/
def memberTokens : List (List UInt8 × Json) → List Token
  | [] => [.endObject]
  | [(name, value)] => .string name :: .colon :: tokens value ++ [.endObject]
  | (name, value) :: rest => .string name :: .colon :: tokens value ++ .comma :: memberTokens rest

end

variable {value item : Json} {items : List Json} {members : List (List UInt8 × Json)}
  {rest : List UInt8}

theorem itemTokens_cons (item second : Json) (others : List Json) :
    itemTokens (item :: second :: others) =
      item.tokens ++ .comma :: itemTokens (second :: others) := by
  rw [itemTokens]
  exact List.cons_ne_nil _ _

theorem memberTokens_cons (name : List UInt8) (value : Json) (second : List UInt8 × Json)
    (others : List (List UInt8 × Json)) : memberTokens ((name, value) :: second :: others) =
      .string name :: .colon :: value.tokens ++ .comma :: memberTokens (second :: others) := by
  rw [memberTokens]
  exact List.cons_ne_nil _ _

/-! ## Finding the tokens -/

theorem Scans.sign {byte : UInt8} {token : Token} (visible : isBlank byte = false)
    (scans : ∀ rest, scanToken byte rest = some (token, rest)) : Scans [byte] [token] rest :=
  .single visible (scans _)

theorem Scans.word {byte : UInt8} {word : String} {token : Token} (visible : isBlank byte = false)
    (scans : ∀ rest, scanToken byte rest = (dropWord word rest).map fun after => (token, after)) :
    Scans (byte :: textBytes word) [token] rest := by
  refine .single visible ((scans _).trans ?_)
  rw [dropWord, if_pos (List.isPrefixOf_iff_prefix.mpr (List.prefix_append _ _)), List.drop_left]
  rfl

theorem scans_printItems (each : ∀ item ∈ items, ∀ rest, Stops rest →
    Scans item.print item.tokens rest) (rest : List UInt8) :
    Scans (printItems items) (itemTokens items) rest := by
  have closes : Scans [ascii ']'] [.endArray] rest := .sign rfl fun _ => rfl
  induction items with
  | nil => exact closes
  | cons item others ih =>
      have first := each item List.mem_cons_self
      cases others with
      | nil =>
          exact (first _ (stops_cons rfl (by decide) (by decide) (by decide))).append closes
      | cons second others =>
          have later := ih fun item member => each item (List.mem_cons_of_mem _ member)
          have comma : Scans [ascii ','] [.comma] (printItems (second :: others) ++ rest) :=
            .sign rfl fun _ => rfl
          exact (first _ (stops_cons rfl (by decide) (by decide) (by decide))).append
            (comma.append later)

theorem scans_printMembers (named : ∀ member ∈ members, ∃ name, member.1 = contentOfText name)
    (each : ∀ member ∈ members, ∀ rest, Stops rest →
      Scans member.2.print member.2.tokens rest) (rest : List UInt8) :
    Scans (printMembers members) (memberTokens members) rest := by
  have closes : Scans [ascii '\x7d'] [.endObject] rest := .sign rfl fun _ => rfl
  induction members with
  | nil => exact closes
  | cons member others ih =>
      obtain ⟨content, value⟩ := member
      obtain ⟨name, rfl⟩ : ∃ name, content = contentOfText name := named _ List.mem_cons_self
      have first := each (contentOfText name, value) List.mem_cons_self
      have heading : ∀ rest, Scans (ascii '"' :: contentOfText name ++ [ascii '"'] ++ [ascii ':'])
          ([.string (contentOfText name)] ++ [.colon]) rest := fun rest =>
        (Scans.string name).append (.sign rfl fun _ => rfl)
      cases others with
      | nil =>
          have member := (heading _).append
            ((first _ (stops_cons rfl (by decide) (by decide) (by decide))).append closes)
          rw [printMembers, memberTokens]
          simpa only [List.append_assoc, List.cons_append, List.nil_append] using member
      | cons second others =>
          have later := ih (fun member inside => named member (List.mem_cons_of_mem _ inside))
            fun member inside => each member (List.mem_cons_of_mem _ inside)
          have comma : Scans [ascii ','] [.comma] (printMembers (second :: others) ++ rest) :=
            .sign rfl fun _ => rfl
          have member := (heading _).append
            ((first _ (stops_cons rfl (by decide) (by decide) (by decide))).append
              (comma.append later))
          rw [printMembers, memberTokens_cons]
          · simpa only [List.append_assoc, List.cons_append, List.nil_append] using member
          · exact List.cons_ne_nil _ _

/-- **The tokens of a plain value are found in its text.** -/
theorem Plain.scans_print (plain : value.Plain) :
    ∀ rest, Stops rest → Scans value.print value.tokens rest := by
  induction plain with
  | null =>
      intro rest _
      show Scans (ascii 'n' :: textBytes "ull") [.null] rest
      exact .word rfl fun _ => rfl
  | bool value =>
      intro rest _
      cases value with
      | false =>
          show Scans (ascii 'f' :: textBytes "alse") [.bool false] rest
          exact .word rfl fun _ => rfl
      | true =>
          show Scans (ascii 't' :: textBytes "rue") [.bool true] rest
          exact .word rfl fun _ => rfl
  | number value => exact fun rest stops => .number value stops
  | string text => exact fun rest _ => .string text
  | @array items _ ih =>
      intro rest _
      have opens : Scans [ascii '['] [.beginArray] (printItems items ++ rest) :=
        .sign rfl fun _ => rfl
      exact opens.append (scans_printItems ih rest)
  | @object members named _ ih =>
      intro rest _
      have opens : Scans [ascii '\x7b'] [.beginObject] (printMembers members ++ rest) :=
        .sign rfl fun _ => rfl
      exact opens.append (scans_printMembers named ih rest)

/-! ## Putting the value together -/

/-- Whether enough fuel reads a value off the front of its tokens, whatever follows them. -/
def ReadBack (value : Json) : Prop :=
  ∀ fuel rest, value.tokens.length ≤ fuel →
    parseValue fuel (value.tokens ++ rest) = some (value, rest)

theorem parseItems_tokens (each : ∀ item ∈ items, item.ReadBack) (nonempty : items ≠ [])
    (fuel : Nat) (rest : List Token) (enough : (itemTokens items).length ≤ fuel) :
    parseItems fuel (itemTokens items ++ rest) = some (items, rest) := by
  induction items generalizing fuel with
  | nil => exact absurd rfl nonempty
  | cons item others ih =>
      have first := each item List.mem_cons_self
      cases others with
      | nil =>
          rw [itemTokens, List.length_append, List.length_singleton] at enough
          obtain ⟨fuel, rfl⟩ := Nat.exists_eq_add_of_le' (Nat.le_of_add_left_le enough)
          rw [itemTokens, List.append_assoc, parseItems, first fuel _ (by omega)]
          rfl
      | cons second others =>
          rw [itemTokens_cons, List.length_append, List.length_cons] at enough
          obtain ⟨fuel, rfl⟩ : ∃ less, fuel = less + 1 := Nat.exists_eq_add_of_le' (by omega)
          rw [itemTokens_cons, List.append_assoc, parseItems, first fuel _ (by omega)]
          dsimp only [List.cons_append]
          rw [ih (fun item member => each item (List.mem_cons_of_mem _ member))
            (List.cons_ne_nil _ _) fuel (by omega)]
          rfl

theorem parseMembers_tokens (each : ∀ member ∈ members, member.2.ReadBack)
    (nonempty : members ≠ []) (fuel : Nat) (rest : List Token)
    (enough : (memberTokens members).length ≤ fuel) :
    parseMembers fuel (memberTokens members ++ rest) = some (members, rest) := by
  induction members generalizing fuel with
  | nil => exact absurd rfl nonempty
  | cons member others ih =>
      obtain ⟨name, value⟩ := member
      have first : value.ReadBack := each (name, value) List.mem_cons_self
      cases others with
      | nil =>
          simp only [memberTokens, List.length_append, List.length_cons, List.length_nil] at enough
          obtain ⟨fuel, rfl⟩ : ∃ less, fuel = less + 1 := Nat.exists_eq_add_of_le' (by omega)
          rw [memberTokens, List.append_assoc, List.cons_append, List.cons_append, parseMembers,
            first fuel _ (by omega)]
          rfl
      | cons second others =>
          simp only [memberTokens_cons, List.length_append, List.length_cons] at enough
          obtain ⟨fuel, rfl⟩ : ∃ less, fuel = less + 1 := Nat.exists_eq_add_of_le' (by omega)
          rw [memberTokens_cons, List.append_assoc, List.cons_append, List.cons_append,
            parseMembers, first fuel _ (by omega)]
          dsimp only [List.cons_append]
          rw [ih (fun member inside => each member (List.mem_cons_of_mem _ inside))
            (List.cons_ne_nil _ _) fuel (by omega)]
          rfl

/-- The tokens of an item do not begin with the end of an array. -/
theorem parseValue_beginArray (fuel : Nat) (item : Json) (others : List Json) (rest : List Token) :
    parseValue (fuel + 1) (.beginArray :: (itemTokens (item :: others) ++ rest)) =
      (parseItems fuel (itemTokens (item :: others) ++ rest)).map fun (items, rest) =>
        (.array items, rest) := by
  cases others <;> cases item <;> rfl

/-- The tokens of a member begin with its name. -/
theorem parseValue_beginObject (fuel : Nat) (member : List UInt8 × Json)
    (others : List (List UInt8 × Json)) (rest : List Token) :
    parseValue (fuel + 1) (.beginObject :: (memberTokens (member :: others) ++ rest)) =
      (parseMembers fuel (memberTokens (member :: others) ++ rest)).map fun (members, rest) =>
        (.object members, rest) := by
  cases others <;> rfl

/-- **A plain value is put together from its tokens.** -/
theorem Plain.readBack (plain : value.Plain) : value.ReadBack := by
  induction plain with
  | @array items _ ih =>
      intro fuel rest enough
      rw [tokens, List.length_cons] at enough
      obtain ⟨fuel, rfl⟩ : ∃ less, fuel = less + 1 := Nat.exists_eq_add_of_le' (by omega)
      cases items with
      | nil => rfl
      | cons item others =>
          rw [tokens, List.cons_append, parseValue_beginArray,
            parseItems_tokens ih (List.cons_ne_nil _ _) fuel rest (by omega)]
          rfl
  | @object members _ _ ih =>
      intro fuel rest enough
      rw [tokens, List.length_cons] at enough
      obtain ⟨fuel, rfl⟩ : ∃ less, fuel = less + 1 := Nat.exists_eq_add_of_le' (by omega)
      cases members with
      | nil => rfl
      | cons member others =>
          rw [tokens, List.cons_append, parseValue_beginObject,
            parseMembers_tokens ih (List.cons_ne_nil _ _) fuel rest (by omega)]
          rfl
  | _ =>
      intro fuel rest enough
      obtain ⟨fuel, rfl⟩ : ∃ less, fuel = less + 1 := Nat.exists_eq_add_of_le' enough
      rfl

/-- **A plain value is read from any text that has its tokens.** -/
theorem Plain.parse?_of_tokens? {bytes : List UInt8} (plain : value.Plain)
    (found : tokens? bytes = some value.tokens) : parse? bytes = some value := by
  have read := plain.readBack (2 * value.tokens.length + 1) [] (by omega)
  rw [List.append_nil] at read
  rw [parse?, found]
  simp only [bind, Option.bind, read]

/-- The tokens of a plain value are all that is found in its text. -/
theorem Plain.tokens?_print (plain : value.Plain) : tokens? value.print = some value.tokens :=
  (plain.scans_print [] stops_nil).tokens?

/-- **A plain value is read back from its text.** -/
theorem Plain.parse?_print (plain : value.Plain) : parse? value.print = some value :=
  plain.parse?_of_tokens? plain.tokens?_print

end LeaseCache.Json
