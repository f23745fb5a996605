import ResultSearch.Proofs.Query.Fragments

/-!
# Trying every shape

Before a shape is tried on a fragment its key is looked for. That is only a shortcut: a shape
refuses every fragment without its key, so that the first shape to accept is the same if all of them
are tried. Here the plain reading, which looks for no key at any depth, stands beside the quick one.

* `keys_shapes`, `Made.key?_eq`: the shapes in their order, and which queries each of them makes.
* `tryParse`: the query that a value spells, by trials alone.
* `Made.exists_part`: no shape does without its key.
* `tryRead_eq_read`: both readings agree at every place of a value.
* `parse_obj_eq_ok_iff`: a shape makes the query of an object if all those before it refuse.
* `exists_parse_iff`, `exists_part_of_parse`: which objects mean a query, and that its key is there.
* `parse_eq_tryParse`: what this means for whole fragments, and why one can be refused.
-/

namespace ResultSearch.Fragment

/-! ## The shapes -/

/-- The twenty shapes, from the first one tried to the last. -/
theorem keys_shapes : shapes.map Prod.fst =
    ["pattern", "subtest", "path", "status", "status", "not", "or", "and", "exists", "all", "none",
      "sequential", "count", "lessThan", "moreThan", "link", "is", "triaged", "label", "feature"] :=
  rfl

/-- The key of the shape that makes a query; none makes a constant. -/
def key? : Query → Option String
  | .const _ => none
  | .testName _ => some "pattern"
  | .subtestName _ => some "subtest"
  | .testPath _ => some "path"
  | .status _ _ => some "status"
  | .not _ => some "not"
  | .or _ => some "or"
  | .and _ => some "and"
  | .someRun _ => some "exists"
  | .everyRun _ => some "all"
  | .noRun _ => some "none"
  | .consecutive _ => some "sequential"
  | .tally .exactly _ _ => some "count"
  | .tally .lessThan _ _ => some "lessThan"
  | .tally .moreThan _ _ => some "moreThan"
  | .link _ => some "link"
  | .quality _ => some "is"
  | .triaged _ => some "triaged"
  | .label _ => some "label"
  | .feature _ => some "feature"

/-- What is made by a shape is a query of its key. -/
theorem Made.key?_eq {parts : Parts} {key : String} {q : Query} (h : Made parts key q) :
    key? q = some key := by
  cases h <;> rfl

/-! ## The plain reading -/

/-- What the first shape makes of the members that makes anything of them. -/
def firstMade (parts : Parts) : Except QueryError Query :=
  match shapes.findSome? fun shape => (shape.2 parts).toOption with
  | some q => .ok q
  | none => .error .unknownFragment

mutual

/-- What a value means as a fragment, and as a list of fragments. -/
def tryRead : Json → Except QueryError Query × Except QueryError (List Query)
  | .obj members => (firstMade (tryMembers members), .error .unknownFragment)
  | .arr [] => (.error .unknownFragment, .error .unknownFragment)
  | .arr (j :: rest) =>
    (.error .unknownFragment, do return (← (tryRead j).1) :: (← tryItems rest))
  | _ => (.error .unknownFragment, .error .unknownFragment)

/-- Every value as a fragment, or the first refusal. -/
def tryItems : List Json → Except QueryError (List Query)
  | [] => .ok []
  | j :: rest => do return (← (tryRead j).1) :: (← tryItems rest)

/-- Every member with both meanings of its value. -/
def tryMembers : List (String × Json) → Parts
  | [] => []
  | (key, j) :: rest => (key, ⟨j, (tryRead j).1, (tryRead j).2⟩) :: tryMembers rest

end

/-- The query that a value spells, with every shape tried on every object. -/
def tryParse (j : Json) : Except QueryError Query := (tryRead j).1

/-! ## Shapes need their keys -/

section Keys

variable {parts : Parts} {key : String}

theorem exists_part_of_text {s : String} (h : text parts key = .ok s) :
    ∃ part, part? parts key = some part := by
  rw [text] at h
  split at h
  · next _ hvalue =>
    obtain ⟨part, hpart, -⟩ := Option.map_eq_some_iff.1 hvalue
    exact ⟨part, hpart⟩
  · cases h

theorem exists_part_of_count {n : Nat} (h : count parts key = .ok n) :
    ∃ part, part? parts key = some part := by
  rw [count] at h
  split at h
  · next _ hvalue =>
    obtain ⟨part, hpart, -⟩ := Option.bind_eq_some_iff.1 hvalue
    exact ⟨part, hpart⟩
  · cases h

theorem exists_part_of_nested {q : Query} (h : nested parts key = .ok q) :
    ∃ part, part? parts key = some part := by
  rw [nested] at h
  split at h
  · next part hpart => exact ⟨part, hpart⟩
  · cases h

theorem exists_part_of_nestedList {qs : List Query} (h : nestedList parts key = .ok qs) :
    ∃ part, part? parts key = some part := by
  rw [nestedList] at h
  split at h
  · next part hpart => exact ⟨part, hpart⟩
  · cases h

/-- No shape makes anything of members without its key. -/
theorem Made.exists_part {q : Query} (h : Made parts key q) :
    ∃ part, part? parts key = some part := by
  cases h with
  | statusNot hpart => exact ⟨_, hpart⟩
  | not harg => exact exists_part_of_nested harg
  | or hargs | and hargs | someRun hargs | everyRun hargs | noRun hargs | consecutive hargs =>
    exact exists_part_of_nestedList hargs
  | exactly hn | lessThan hn | moreThan hn => exact exists_part_of_count hn
  | pattern hs | subtest hs | path hs | status hs | link hs | quality hs | triaged hs
  | triagedProduct hs | label hs | feature hs => exact exists_part_of_text hs

end Keys

/-! ## Both readings agree -/

/-- The first shape that accepts has its key there. -/
theorem choose_eq_firstMade (parts : Parts) : choose parts shapes = firstMade parts := by
  -- A sublist of the shapes will do, so that the induction can go along it.
  suffices h : ∀ l : List Shape, (∀ shape ∈ l, shape ∈ shapes) → choose parts l =
      match l.findSome? fun shape => (shape.2 parts).toOption with
      | some q => .ok q
      | none => .error .unknownFragment from h shapes fun _ hs => hs
  intro l hl
  induction l with
  | nil => rfl
  | cons shape rest ih =>
    obtain ⟨hshape, hrest⟩ := List.forall_mem_cons.1 hl
    rw [choose, List.findSome?_cons]
    cases hmade : shape.2 parts with
    | ok q =>
      obtain ⟨part, hpart⟩ := (made_of_shape hshape hmade).exists_part
      rw [hpart]
      rfl
    | error e =>
      split <;> exact ih hrest

mutual

/-- Every value means the same in both readings, as a fragment and as a list of fragments. -/
theorem tryRead_eq_read : ∀ j : Json, tryRead j = read j
  | .obj members => by
    rw [tryRead, read, tryMembers_eq_readMembers members, choose_eq_firstMade]
  | .arr [] => rfl
  | .arr (j :: rest) => by
    rw [tryRead, read, tryRead_eq_read j, tryItems_eq_readItems rest]
  | .null | .bool _ | .int _ | .float _ | .str _ | .unreadable => by rw [tryRead, read] <;> simp

theorem tryItems_eq_readItems : ∀ items : List Json, tryItems items = readItems items
  | [] => rfl
  | j :: rest => by
    rw [tryItems, readItems, tryRead_eq_read j, tryItems_eq_readItems rest]

theorem tryMembers_eq_readMembers :
    ∀ members : List (String × Json), tryMembers members = readMembers members
  | [] => rfl
  | (key, j) :: rest => by
    rw [tryMembers, readMembers, tryRead_eq_read j, tryMembers_eq_readMembers rest]

end

/-! ## Refusals -/

/-- An object means what the first shape makes of its members that makes anything of them. -/
theorem parse_obj (members : List (String × Json)) :
    parse (.obj members) = firstMade (readMembers members) := by
  rw [parse, read, choose_eq_firstMade]

/-- A shape makes the query of an object if and only if it is the first one that does not refuse the
members. -/
theorem parse_obj_eq_ok_iff (members : List (String × Json)) (q : Query) :
    parse (.obj members) = .ok q ↔ ∃ before shape after, shapes = before ++ shape :: after ∧
      shape.2 (readMembers members) = .ok q ∧
      ∀ earlier ∈ before, ∃ e, earlier.2 (readMembers members) = .error e := by
  have hok (x : Except QueryError Query) : x.toOption = some q ↔ x = .ok q := by
    cases x <;> simp [Except.toOption]
  have herror (x : Except QueryError Query) : x.toOption = none ↔ ∃ e, x = .error e := by
    cases x <;> simp [Except.toOption]
  have hmade : firstMade (readMembers members) = .ok q ↔
      shapes.findSome? (fun shape => (shape.2 (readMembers members)).toOption) = some q := by
    rw [firstMade]
    split <;> simp [*]
  simp only [parse_obj, hmade, List.findSome?_eq_some_iff, hok, herror]

/-- The query of an object is made by a shape. -/
theorem made_of_parse {members : List (String × Json)} {q : Query}
    (h : parse (.obj members) = .ok q) : ∃ key, Made (readMembers members) key q := by
  obtain ⟨before, shape, after, hshapes, hmade, -⟩ := (parse_obj_eq_ok_iff members q).1 h
  have hs : shape ∈ shapes := hshapes ▸ List.mem_append_right before List.mem_cons_self
  exact ⟨shape.1, made_of_shape hs hmade⟩

/-- An object means a query if a shape makes one of its members, and only then. -/
theorem exists_parse_iff (members : List (String × Json)) :
    (∃ q, parse (.obj members) = .ok q) ↔ ∃ key q, Made (readMembers members) key q := by
  constructor
  · rintro ⟨q, hq⟩
    obtain ⟨key, hmade⟩ := made_of_parse hq
    exact ⟨key, q, hmade⟩
  · rintro ⟨key, q, hmade⟩
    obtain ⟨shape, hs, -, hq⟩ := hmade.exists_shape
    have hsome : (shapes.findSome? fun s => (s.2 (readMembers members)).toOption).isSome = true :=
      List.findSome?_isSome_iff.2 ⟨shape, hs, congrArg (fun made => made.toOption.isSome) hq⟩
    obtain ⟨q', hq'⟩ := Option.isSome_iff_exists.1 hsome
    rw [parse_obj, firstMade, hq']
    exact ⟨q', rfl⟩

/-- The key of the query is a key of the object. -/
theorem exists_part_of_parse {members : List (String × Json)} {q : Query}
    (h : parse (.obj members) = .ok q) :
    ∃ key part, key? q = some key ∧ part? (readMembers members) key = some part := by
  obtain ⟨key, hmade⟩ := made_of_parse h
  obtain ⟨part, hpart⟩ := hmade.exists_part
  exact ⟨key, part, hmade.key?_eq, hpart⟩

/-- A shape that refuses the fragment leaves it to a later one, which may have the same key. -/
example : parse (.obj [("is", .str "shiny"), ("label", .str "x")]) = .ok (.label "x") ∧
    parse (.obj [("status", .obj [("not", .str "PASS")])]) = .ok (.status none (.isNot .pass)) :=
  ⟨rfl, rfl⟩

/-- A value that means nothing is refused for one reason only, whatever its parts are refused for. -/
theorem parse_isOk_or (j : Json) : (∃ q, parse j = .ok q) ∨ parse j = .error .unknownFragment := by
  cases j with
  | obj members =>
    rw [parse_obj, firstMade]
    split
    · next q _ => exact .inl ⟨q, rfl⟩
    · exact .inr rfl
  | arr items => cases items <;> exact .inr rfl
  | _ => exact .inr rfl

/-- The reading that looks for keys first gives what trying every shape on every object gives, at any
depth. If it refuses a value, this is for not being a fragment, and nothing else that is wrong with a
part of the value comes out. -/
theorem parse_eq_tryParse (j : Json) :
    parse j = tryParse j ∧ ((∃ q, parse j = .ok q) ∨ parse j = .error .unknownFragment) :=
  ⟨congrArg Prod.fst (tryRead_eq_read j).symm, parse_isOk_or j⟩

end ResultSearch.Fragment
