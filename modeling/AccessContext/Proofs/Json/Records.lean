import AccessContext.Proofs.Json.Lawful

/-!
# Records are read back

The members of an object are read one after another into a draft. A sequence of members leads from
one draft to another if each of them is read into the draft that the members before it left; the
fields of a record, each written under its own name, lead from the blank draft to the full one.
Main statement: `Codec.isLawful_record`.
-/

namespace AccessContext.Json

namespace Fields

variable {τ : Type}

/-- The names of the fields, in order. -/
def names : {τ : Type} → Fields τ → List String
  | _, done => []
  | _, field name _ _ rest => name :: rest.names

/-- Whether every field has a lawful codec. -/
def IsLawful : {τ : Type} → Fields τ → Prop
  | _, done => True
  | _, field _ codec _ rest => codec.IsLawful ∧ rest.IsLawful

/-- The draft in which every field has been read. -/
def full : {τ : Type} → (fs : Fields τ) → τ → fs.Draft
  | _, done, _ => ()
  | _, field _ _ _ rest, (b, tail) => (some b, rest.full tail)

/-- Every field with its name and the text of its value. -/
def members : {τ : Type} → Fields τ → τ → List (String × List Char)
  | _, done, _ => []
  | _, field name codec _ rest, (b, tail) => (name, codec.write b) :: rest.members tail

/-- The text of a member. -/
def memberText (m : String × List Char) : List Char :=
  Codec.writeString m.1.toList ++ ':' :: m.2

theorem write_eq (fs : Fields τ) (t : τ) : fs.write t = (fs.members t).map memberText := by
  induction fs with
  | done => rfl
  | field name codec default? rest ih =>
    rw [write, members, ih, List.map_cons]
    rfl

theorem map_members (fs : Fields τ) (t : τ) : (fs.members t).map Prod.fst = fs.names := by
  induction fs with
  | done => rfl
  | field name codec default? rest ih => rw [members, names, List.map_cons, ih]

theorem finish_full (fs : Fields τ) (t : τ) : fs.finish (fs.full t) = .ok t := by
  induction fs with
  | done => rfl
  | field name codec default? rest ih =>
    obtain ⟨b, tail⟩ := t
    simp [full, finish, ih]

/-- A sequence of members that leads from one draft to another. -/
inductive Leads (fs : Fields τ) : fs.Draft → List (String × List Char) → fs.Draft → Prop
  | nil (draft : fs.Draft) : Leads fs draft [] draft
  | cons {before between after : fs.Draft} {key : String} {text : List Char}
      {ms : List (String × List Char)}
      (read : ∀ rest, Ends rest →
        fs.member key before (':' :: (text ++ rest)) = .ok (between, rest))
      (tail : Leads fs between ms after) : Leads fs before ((key, text) :: ms) after

/-- Members of the fields behind the first one leave the first one alone. -/
theorem Leads.field {β : Type} {name : String} {codec : Codec β} {default? : Option β}
    {fs : Fields τ} {before after : fs.Draft} {ms : List (String × List Char)}
    (h : fs.Leads before ms after) (hname : name ∉ ms.map Prod.fst) (value : Option β) :
    (Fields.field name codec default? fs).Leads (value, before) ms (value, after) := by
  induction h with
  | nil => exact .nil _
  | cons read _ ih =>
    rw [List.map_cons, List.mem_cons, not_or] at hname
    refine .cons (fun rest hrest => ?_) (ih hname.2)
    refine (congrFun (if_neg (Ne.symm hname.1)) _).trans ?_
    exact bind_of_ok (read rest hrest)

theorem colon_cons (s : List Char) : colon (':' :: s) = .ok ((), s) :=
  rfl

/-- The fields of a record lead from the blank draft to the full one. -/
theorem leads_members {fs : Fields τ} (h : fs.IsLawful) (hnames : fs.names.Nodup) (t : τ) :
    fs.Leads fs.blank (fs.members t) (fs.full t) := by
  induction fs with
  | done => exact .nil _
  | field name codec default? rest ih =>
    obtain ⟨b, tail⟩ := t
    obtain ⟨hname, hrest⟩ := List.nodup_cons.1 hnames
    rw [← map_members rest tail] at hname
    refine .cons (fun s hs => ?_) ((ih h.2 hrest tail).field hname (some b))
    refine (congrFun (if_pos rfl) _).trans ?_
    exact (bind_of_ok (colon_cons _)).trans (bind_of_ok ((h.1 b).read s hs))

/-! ### Reading the members -/

theorem memberText_append (m : String × List Char) (rest : List Char) :
    memberText m ++ rest =
      '"' :: (m.1.toList.flatMap Codec.writeChar ++ '"' :: ':' :: (m.2 ++ rest)) := by
  rw [memberText, List.append_assoc, writeString_append, List.cons_append]

theorem nextKey_close (first : Bool) (rest : List Char) :
    nextKey first ('\x7d' :: rest) = .ok (false, '\x7d' :: rest) :=
  rfl

theorem nextKey_first (s : List Char) : nextKey true ('"' :: s) = .ok (true, s) :=
  rfl

theorem nextKey_comma (s : List Char) : nextKey false (',' :: '"' :: s) = .ok (true, s) :=
  rfl

/-- The members after the first are read one behind each comma. -/
theorem Leads.membersFrom_parts {fs : Fields τ} {before after : fs.Draft}
    {ms : List (String × List Char)} (h : fs.Leads before ms after) {fuel : Nat}
    (hfuel : ms.length < fuel) (rest : List Char) :
    fs.membersFrom fuel false before
        ((ms.map memberText).flatMap (',' :: ·) ++ '\x7d' :: rest) =
      .ok (after, '\x7d' :: rest) := by
  induction h generalizing fuel with
  | nil draft =>
    obtain ⟨fuel, rfl⟩ := Nat.exists_eq_add_one_of_ne_zero (Nat.ne_of_gt hfuel)
    simp [membersFrom, nextKey_close]
  | @cons before between after key text ms read tail ih =>
    obtain ⟨fuel, rfl⟩ := Nat.exists_eq_add_one_of_ne_zero (Nat.ne_zero_of_lt hfuel)
    rw [List.length_cons] at hfuel
    rw [List.map_cons, List.flatMap_cons, List.cons_append, List.cons_append, List.append_assoc,
      memberText_append, membersFrom, nextKey_comma]
    dsimp only
    rw [string_flatMap]
    dsimp only
    rw [String.ofList_toList, read _ (ends_parts _ rest (.inr rfl))]
    exact ih (by omega)

theorem Leads.membersFrom_separated {fs : Fields τ} {before after : fs.Draft}
    {ms : List (String × List Char)} (h : fs.Leads before ms after) {fuel : Nat}
    (hfuel : ms.length < fuel) (rest : List Char) :
    fs.membersFrom fuel true before (separated (ms.map memberText) ++ '\x7d' :: rest) =
      .ok (after, '\x7d' :: rest) := by
  obtain ⟨fuel, rfl⟩ := Nat.exists_eq_add_one_of_ne_zero (Nat.ne_zero_of_lt hfuel)
  cases h with
  | nil => rfl
  | @cons _ between _ key text ms read tail =>
    rw [List.length_cons] at hfuel
    rw [List.map_cons, separated_cons, List.append_assoc, memberText_append, membersFrom,
      nextKey_first]
    dsimp only
    rw [string_flatMap]
    dsimp only
    rw [String.ofList_toList, read _ (ends_parts _ rest (.inr rfl))]
    exact tail.membersFrom_parts (by omega) rest

theorem length_le_separated (ms : List (String × List Char)) :
    ms.length ≤ (separated (ms.map memberText)).length := by
  cases ms with
  | nil => exact Nat.le_refl 0
  | cons m ms =>
    have hle := length_le_parts (ms.map memberText)
    rw [List.length_map] at hle
    rw [List.map_cons, separated_cons, List.length_append, List.length_cons, memberText,
      List.length_append, List.length_cons]
    omega

end Fields

/-- A record whose fields have lawful codecs and different names is read back. -/
theorem Codec.isLawful_record {α τ : Type} {name : String} {fs : Fields τ} {build : τ → α}
    {parts : α → τ} (h : fs.IsLawful) (hnames : fs.names.Nodup) (hbuild : ∀ a, build (parts a) = a) :
    (Codec.record name fs build parts).IsLawful := by
  intro a
  refine ⟨⟨'\x7b', _, rfl, rfl, by decide⟩, fun rest _ => ?_⟩
  have hlength := Fields.length_le_separated (fs.members (parts a))
  have hfuel : (fs.members (parts a)).length <
      (separated (fs.write (parts a)) ++ '\x7d' :: rest).length + 1 := by
    rw [Fields.write_eq, List.length_append]
    omega
  have hread := (Fields.leads_members h hnames (parts a)).membersFrom_separated hfuel rest
  have hwrite : (Codec.record name fs build parts).write a ++ rest =
      '\x7b' :: (separated (fs.write (parts a)) ++ '\x7d' :: rest) := by
    simp [Codec.record]
  rw [← Fields.write_eq] at hread
  rw [hwrite]
  refine (bind_of_ok (valueStart_cons rfl)).trans ?_
  rw [if_neg (by decide), if_pos rfl, bind_of_ok (advance_cons _ _),
    bind_of_ok (x := fun s => fs.membersFrom (s.length + 1) true fs.blank s) hread,
    Fields.finish_full]
  change Except.ok (build (parts a), rest) = _
  rw [hbuild]

end AccessContext.Json
