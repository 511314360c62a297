import JsxTracking.Proofs.JsonReaders
import JsxTracking.Json.Record
import Mathlib.Data.List.Nodup

/-! # What readers of records understand

A record is an object with members in any order, among them any that do not matter, or a list of its
members' values in order. Records are understood in either form (`Json.Reader.understands_record`), and
both forms come down to members by their keys: a record is read if each of its parts is told at most
once and what is told of it is understood (`Json.Reader.takeRecord?_eq_some_iff`). -/

namespace JsxTracking.Json

variable {α σ : Type} {text rest behind : List Char} {c : Char}

namespace Document

/-- The members of an object by their keys, which must all be texts. -/
def textMembers? (members : List (Option String × Document)) : Option (List (String × Document)) :=
  members.mapM fun (key?, document) => key?.map (·, document)

theorem textMembers?_cons_eq_some_iff {key : String} {document : Document}
    {members : List (Option String × Document)} {told : List (String × Document)} :
    textMembers? ((some key, document) :: members) = some told ↔
      ∃ more, textMembers? members = some more ∧ told = (key, document) :: more := by
  rw [textMembers?, List.mapM_cons]
  cases texts : members.mapM fun (key?, document) => key?.map (·, document) with
  | none => simp [textMembers?, texts]
  | some more => simp [textMembers?, texts, eq_comm]

/-- The members of a record by their keys: those of an object, whose keys must all be texts, or the
elements of a list in the order of the keys. -/
def members? (keys : List String) : Document → Option (List (String × Document))
  | object members => textMembers? members
  | list items => if items.length ≤ keys.length then some (keys.zip items) else none
  | _ => none

/-- The value of the member with a key, if there is exactly one. -/
def only? (key : String) (members : List (String × Document)) : Option Document :=
  match members.filter fun member => member.1 = key with
  | [(_, document)] => some document
  | _ => none

/-- What members tell under a key. -/
def told? (members : List (String × Document)) (key : String) (meaning? : Document → Option α) :
    Option α :=
  (only? key members).bind meaning?

end Document

theorem Spells.begins_list {documents : List Document}
    (spells : Spells text (.value (.list documents)) rest) : ∃ behind, Begins text '[' behind := by
  cases spells with
  | emptyList begins | list begins => exact ⟨_, begins⟩

theorem Spells.begins_object {members : List (Option String × Document)}
    (spells : Spells text (.value (.object members)) rest) : ∃ behind, Begins text '{' behind := by
  cases spells with
  | emptyObject begins | object begins => exact ⟨_, begins⟩

theorem Begins.unique {other : List Char} (begins : Begins text c rest) (again : Begins text c other)
    (solid : isBlank c = false) : rest = other :=
  (List.cons.inj ((begins.dropWhile solid).symm.trans (again.dropWhile solid))).2

namespace Reader

/-! ## Reading members one after another -/

/-- A member of a record whose value is understood. -/
structure RecordPart (σ : Type) where
  Value : Type
  key : String
  part : σ → Option Value
  value : Reader Value
  store : σ → Value → σ
  meaning? : Document → Option Value
  understands : Understands value meaning?

/-- How a part is read. -/
def RecordPart.member (part : RecordPart σ) : Member σ :=
  .stored part.key part.part part.value part.store

/-- What is read of a value into a part of the state. -/
def RecordPart.take? (part : RecordPart σ) (state : σ) (document : Document) : Option σ :=
  (part.meaning? document).map (part.store state)

/-- What is read of a member of an object: a member that does not matter is skipped, one that does must
not have been read before. -/
def takeMember? (parts : List (RecordPart σ)) (state : σ) : Option String × Document → Option σ
  | (none, _) => none
  | (some key, document) =>
    match parts.find? fun part => part.key = key with
    | none => some state
    | some part => if (part.part state).isSome then none else part.take? state document

/-- What is read of the elements of a list, one for each part. -/
def takeItems? : List (RecordPart σ) → σ → List Document → Option σ
  | _, state, [] => some state
  | [], _, _ :: _ => none
  | part :: parts, state, document :: documents =>
    (part.take? state document).bind fun state => takeItems? parts state documents

/-- What is read of a record in either form. -/
def takeRecord? (parts : List (RecordPart σ)) (state : σ) : Document → Option σ
  | .object members => members.foldlM (takeMember? parts) state
  | .list items => takeItems? parts state items
  | _ => none

variable {part : RecordPart σ} {parts : List (RecordPart σ)} {state last : σ}

theorem RecordPart.run_read_iff : (part.member.read state).run text = .ok (last, rest) ↔
    ∃ document, Spells text (.value document) rest ∧ part.take? state document = some last := by
  change (part.value >>= fun value => pure (part.store state value)).run text = _ ↔ _
  constructor
  · intro read
    obtain ⟨value, middle, given, made⟩ := of_run_bind read
    obtain ⟨rfl, rfl⟩ := Prod.mk.inj (Except.ok.inj made)
    obtain ⟨document, spells, means⟩ := part.understands.mp given
    exact ⟨document, spells, by rw [take?, means]; rfl⟩
  · rintro ⟨document, spells, taken⟩
    obtain ⟨value, means, rfl⟩ := Option.map_eq_some_iff.mp taken
    exact run_bind_ok (part.understands.mpr ⟨document, spells, means⟩)

theorem find?_member (parts : List (RecordPart σ)) (key : String) :
    (parts.map RecordPart.member).find? (fun member => member.key = key) =
      (parts.find? fun part => part.key = key).map RecordPart.member := by
  rw [List.find?_map]
  rfl

/-- A member of an object from behind the quote of its key, and what is read after it. -/
def memberThen (parts : List (RecordPart σ)) (next : σ → Reader σ) (state : σ) : Reader σ := do
  let key := String.ofList (← lift stringChars)
  match (parts.map RecordPart.member).find? fun member => member.key = key with
  | some member =>
    if member.isRead state then fail .unexpected
    else
      colon
      next (← member.read state)
  | none =>
    colon
    skip
    next state

theorem run_memberThen_iff {next : σ → Reader σ} {result : σ × List Char} :
    (memberThen parts next state).run text = .ok result ↔
      ∃ contents key? document past value middle taken,
        text = contents ++ '"' :: past ∧ Quotes contents key? ∧ Begins past ':' value ∧
          Spells value (.value document) middle ∧
          takeMember? parts state (key?, document) = some taken ∧
          (next taken).run middle = .ok result := by
  unfold memberThen
  constructor
  · intro read
    obtain ⟨chars, past, named, onward⟩ := of_run_bind read
    rw [run_lifted, ← String.toList_ofList (l := chars)] at named
    obtain ⟨contents, quotes, rfl⟩ := stringChars_iff_quotes.mp named
    dsimp only at onward
    rw [find?_member] at onward
    cases found : parts.find? fun part => part.key = String.ofList chars with
    | none =>
      rw [found] at onward
      obtain ⟨_, value, colon, onward⟩ := of_run_bind onward
      obtain ⟨_, middle, skipped, onward⟩ := of_run_bind onward
      obtain ⟨document, spells⟩ := run_skip_iff.mp skipped
      refine ⟨contents, _, document, past, value, middle, state, rfl, quotes,
        run_colon_iff.mp colon, spells, ?_, onward⟩
      simp only [takeMember?, found]
    | some part =>
      rw [found] at onward
      dsimp only [Option.map_some] at onward
      split at onward
      case isTrue => exact absurd onward run_fail_ne
      case isFalse unread =>
        obtain ⟨_, value, colon, onward⟩ := of_run_bind onward
        obtain ⟨taken, middle, given, onward⟩ := of_run_bind onward
        obtain ⟨document, spells, takes⟩ := part.run_read_iff.mp given
        refine ⟨contents, _, document, past, value, middle, taken, rfl, quotes,
          run_colon_iff.mp colon, spells, ?_, onward⟩
        simp only [takeMember?, found]
        exact (if_neg unread).trans takes
  · rintro ⟨contents, key?, document, past, value, middle, taken, rfl, quotes, colon, spells, takes,
      onward⟩
    cases key? with
    | none => cases takes
    | some key =>
      have named : stringChars (contents ++ '"' :: past) = .ok (key.toList, past) :=
        stringChars_iff_quotes.mpr ⟨contents, quotes, rfl⟩
      rw [run_bind_ok (run_lift named)]
      dsimp only
      rw [String.ofList_toList, find?_member]
      simp only [takeMember?] at takes
      cases found : parts.find? fun part => part.key = key with
      | none =>
        rw [found] at takes
        obtain rfl := Option.some.inj takes
        refine (run_bind_ok (run_colon_iff.mpr colon)).trans ?_
        exact (run_bind_ok (run_skip_iff.mpr ⟨document, spells⟩)).trans onward
      | some part =>
        rw [found] at takes
        dsimp only [Option.map_some] at takes ⊢
        split at takes
        case isTrue => cases takes
        case isFalse unread =>
          have unreadMember : ¬ part.member.isRead state = true := unread
          rw [if_neg unreadMember]
          refine (run_bind_ok (run_colon_iff.mpr colon)).trans ?_
          exact (run_bind_ok (part.run_read_iff.mpr ⟨document, spells, takes⟩)).trans onward

/-- The first member of an object, or its end. -/
theorem of_run_moreMembers_first {more : Bool} {middle : List Char}
    (read : (moreMembers true).run text = .ok (more, middle)) :
    if more then Begins text '"' middle else ∃ rest, Begins text '}' rest ∧ middle = '}' :: rest := by
  rw [moreMembers] at read
  obtain ⟨c, behind, dropped, given⟩ := of_run_peek_bind read run_fail_ne
  have begins := begins_of_dropWhile dropped
  split at given
  case h_1 none => cases none
  case h_2 same =>
    obtain rfl := Option.some.inj same
    obtain ⟨rfl, rfl⟩ := Prod.mk.inj (Except.ok.inj given)
    exact ⟨behind, begins, rfl⟩
  case h_3 same =>
    obtain rfl := Option.some.inj same
    rw [if_pos rfl] at given
    split at given
    case isTrue quote =>
      subst quote
      obtain ⟨rfl, rfl⟩ := Prod.mk.inj (Except.ok.inj given)
      exact begins
    case isFalse => exact absurd given run_fail_ne

/-- What comes after a member of an object is its end, or a comma and another member. -/
theorem of_run_moreMembers {more : Bool} {middle : List Char}
    (read : (moreMembers false).run text = .ok (more, middle)) :
    if more then ∃ behind, Begins text ',' behind ∧ Begins behind '"' middle
    else ∃ rest, Begins text '}' rest ∧ middle = '}' :: rest := by
  rw [moreMembers] at read
  obtain ⟨c, behind, dropped, given⟩ := of_run_peek_bind read run_fail_ne
  have begins := begins_of_dropWhile dropped
  split at given
  case h_1 none => cases none
  case h_2 same =>
    obtain rfl := Option.some.inj same
    obtain ⟨rfl, rfl⟩ := Prod.mk.inj (Except.ok.inj given)
    exact ⟨behind, begins, rfl⟩
  case h_3 same =>
    obtain rfl := Option.some.inj same
    rw [if_neg Bool.false_ne_true] at given
    split at given
    case isTrue comma =>
      subst comma
      rw [run_advance_bind] at given
      obtain ⟨next, later, opened, made⟩ := of_run_peek_bind given run_fail_ne
      split at made
      case h_1 same =>
        obtain rfl := Option.some.inj same
        obtain ⟨rfl, rfl⟩ := Prod.mk.inj (Except.ok.inj made)
        exact ⟨behind, begins, begins_of_dropWhile opened⟩
      case h_2 => exact absurd made run_fail_ne
      case h_3 => exact absurd made run_fail_ne
    case isFalse => exact absurd given run_fail_ne

theorem run_moreMembers_of_end {first : Bool} (ends : Begins text '}' rest) :
    (moreMembers first).run text = .ok (false, '}' :: rest) := by
  obtain ⟨blanks, blank, rfl⟩ := ends
  exact run_moreMembers_end first blank rest

theorem run_moreMembers_of_first (begins : Begins text '"' rest) :
    (moreMembers true).run text = .ok (true, rest) := by
  obtain ⟨blanks, blank, rfl⟩ := begins
  exact run_moreMembers_first blank rest

theorem run_moreMembers_of_next (begins : Begins text ',' behind) (quoted : Begins behind '"' rest) :
    (moreMembers false).run text = .ok (true, rest) := by
  obtain ⟨blanks, blank, rfl⟩ := quoted
  obtain ⟨outer, outerBlank, rfl⟩ := begins
  have next := run_moreMembers_next blank rest
  rw [moreMembers, run_peek_bind] at next ⊢
  rw [dropWhile_blanks outerBlank rfl]
  exact next

theorem members_succ (parts : List (RecordPart σ)) (fuel : Nat) (first : Bool) (state : σ) :
    members (parts.map RecordPart.member) (fuel + 1) first state = do
      if ← moreMembers first then
        memberThen parts (members (parts.map RecordPart.member) fuel false) state
      else
        advance
        return state := rfl

/-- The members of an object after the first are read up to its end. -/
theorem run_members_iff {fuel : Nat} (enough : text.length < fuel) :
    (members (parts.map RecordPart.member) fuel false state).run text = .ok (last, rest) ↔
      ∃ members, Spells text (.members members) rest ∧
        members.foldlM (takeMember? parts) state = some last := by
  induction fuel generalizing text state with
  | zero => omega
  | succ fuel ih =>
    rw [members_succ]
    constructor
    · intro read
      obtain ⟨more, middle, given, onward⟩ := of_run_bind read
      have place := of_run_moreMembers given
      cases more with
      | false =>
        obtain ⟨after, ends, rfl⟩ := place
        obtain ⟨rfl, rfl⟩ := Prod.mk.inj (Except.ok.inj onward)
        exact ⟨[], .endOfMembers ends, rfl⟩
      | true =>
        obtain ⟨behind, begins, quoted⟩ := place
        obtain ⟨contents, key?, document, past, value, next, taken, rfl, quotes, colon, spells, takes,
          onward⟩ := run_memberThen_iff.mp onward
        have member : Spells behind (.member key? document) next :=
          .member quoted quotes colon spells
        have shorter := begins.length_lt
        have shortest := member.length_lt
        obtain ⟨others, more, takesMore⟩ := (ih (by omega)).mp onward
        refine ⟨(key?, document) :: others, .nextMember begins member more, ?_⟩
        rw [List.foldlM_cons, takes]
        exact takesMore
    · rintro ⟨listed, spells, takes⟩
      cases spells with
      | endOfMembers ends =>
        obtain rfl := Option.some.inj takes
        rw [run_bind_ok (run_moreMembers_of_end ends)]
        rfl
      | @nextMember _ behind next _ key? document others begins member more =>
        have shorter := begins.length_lt
        have shortest := member.length_lt
        rw [List.foldlM_cons] at takes
        obtain ⟨taken, takesFirst, takesMore⟩ := Option.bind_eq_some_iff.mp takes
        cases member with
        | member quoted quotes colon value =>
          rw [run_bind_ok (run_moreMembers_of_next begins quoted)]
          exact run_memberThen_iff.mpr ⟨_, key?, document, _, _, next, taken, rfl, quotes, colon,
            value, takesFirst, (ih (by omega)).mpr ⟨others, more, takesMore⟩⟩

theorem values_nil (first : Bool) (state : σ) : values [] first state = do
    endOfList
    return state := by
  rw [values]

theorem values_cons (part : RecordPart σ) (parts : List (RecordPart σ)) (first : Bool) (state : σ) :
    values ((part :: parts).map RecordPart.member) first state = do
      if ← moreItems first then
        values (parts.map RecordPart.member) false (← part.member.read state)
      else
        endOfList
        return state := by
  rw [List.map_cons, values]

/-- The elements of a list after the first are read in order, one for each part. -/
theorem run_values_iff :
    (values (parts.map RecordPart.member) false state).run text = .ok (last, rest) ↔
      ∃ documents, Spells text (.items documents) rest ∧
        takeItems? parts state documents = some last := by
  induction parts generalizing text state with
  | nil =>
    rw [List.map_nil, values_nil]
    constructor
    · intro read
      obtain ⟨_, middle, ended, made⟩ := of_run_bind read
      obtain ⟨rfl, rfl⟩ := Prod.mk.inj (Except.ok.inj made)
      exact ⟨[], .endOfItems (run_endOfList_iff.mp ended), rfl⟩
    · rintro ⟨documents, spells, takes⟩
      cases spells with
      | endOfItems ends =>
        obtain rfl := Option.some.inj takes
        rw [run_bind_ok (run_endOfList_iff.mpr ends)]
        rfl
      | nextItem => cases takes
  | cons part parts ih =>
    rw [values_cons]
    constructor
    · intro read
      obtain ⟨more, middle, given, onward⟩ := of_run_bind read
      have place := of_run_moreItems given
      cases more with
      | false =>
        obtain ⟨_, after, ended, made⟩ := of_run_bind onward
        obtain ⟨rfl, rfl⟩ := Prod.mk.inj (Except.ok.inj made)
        have ends := run_endOfList_iff.mp ended
        rw [place] at ends
        exact ⟨[], .endOfItems ends.of_dropWhile, rfl⟩
      | true =>
        obtain ⟨behind, begins, rfl⟩ := place
        obtain ⟨taken, next, first, onward⟩ := of_run_bind onward
        obtain ⟨document, spells, takes⟩ := part.run_read_iff.mp first
        obtain ⟨others, more, takesMore⟩ := ih.mp onward
        refine ⟨document :: others, .nextItem begins spells.of_dropWhile more, ?_⟩
        rw [takeItems?, takes]
        exact takesMore
    · rintro ⟨documents, spells, takes⟩
      cases spells with
      | endOfItems ends =>
        obtain rfl := Option.some.inj takes
        rw [run_bind_ok (run_moreItems_of_end ends)]
        refine (run_bind_ok (run_endOfList rest)).trans ?_
        rfl
      | @nextItem _ behind next _ document others begins spelled more =>
        rw [takeItems?] at takes
        obtain ⟨taken, takesFirst, takesMore⟩ := Option.bind_eq_some_iff.mp takes
        rw [run_bind_ok (run_moreItems_of_next begins spelled)]
        have first := part.run_read_iff.mpr ⟨document, spelled.dropWhile, takesFirst⟩
        exact (run_bind_ok first).trans (ih.mpr ⟨others, more, takesMore⟩)

/-- The elements of a list are read in order from its bracket on. -/
theorem run_values_first_iff (begins : Begins text '[' behind) :
    (values (parts.map RecordPart.member) true state).run behind = .ok (last, rest) ↔
      ∃ documents, Spells text (.value (.list documents)) rest ∧
        takeItems? parts state documents = some last := by
  cases parts with
  | nil =>
    rw [List.map_nil, values_nil]
    constructor
    · intro read
      obtain ⟨_, middle, ended, made⟩ := of_run_bind read
      obtain ⟨rfl, rfl⟩ := Prod.mk.inj (Except.ok.inj made)
      exact ⟨_, .emptyList begins (run_endOfList_iff.mp ended), rfl⟩
    · rintro ⟨documents, spells, takes⟩
      cases spells with
      | emptyList opened ends =>
        obtain rfl := begins.unique opened rfl
        obtain rfl := Option.some.inj takes
        rw [run_bind_ok (run_endOfList_iff.mpr ends)]
        rfl
      | list => cases takes
  | cons part parts =>
    rw [values_cons]
    constructor
    · intro read
      obtain ⟨more, middle, opened, onward⟩ := of_run_bind read
      obtain rfl := of_run_moreItems_first opened
      cases more with
      | false =>
        obtain ⟨_, after, ended, made⟩ := of_run_bind onward
        obtain ⟨rfl, rfl⟩ := Prod.mk.inj (Except.ok.inj made)
        exact ⟨_, .emptyList begins (run_endOfList_iff.mp ended).of_dropWhile, rfl⟩
      | true =>
        obtain ⟨taken, next, first, onward⟩ := of_run_bind onward
        obtain ⟨document, spells, takes⟩ := part.run_read_iff.mp first
        obtain ⟨others, more, takesMore⟩ := run_values_iff.mp onward
        refine ⟨_, .list begins spells.of_dropWhile more, ?_⟩
        rw [takeItems?, takes]
        exact takesMore
    · rintro ⟨documents, spells, takes⟩
      cases spells with
      | emptyList opened ends =>
        obtain rfl := begins.unique opened rfl
        obtain rfl := Option.some.inj takes
        rw [run_bind_ok (run_moreItems_of_end ends)]
        exact run_bind_ok (run_endOfList rest)
      | @list _ _ next _ document documents opened spelled more =>
        obtain rfl := begins.unique opened rfl
        rw [takeItems?] at takes
        obtain ⟨taken, takesFirst, takesMore⟩ := Option.bind_eq_some_iff.mp takes
        rw [run_bind_ok (run_moreItems_of_first spelled)]
        have first := part.run_read_iff.mpr ⟨document, spelled.dropWhile, takesFirst⟩
        exact (run_bind_ok first).trans (run_values_iff.mpr ⟨documents, more, takesMore⟩)

/-- The members of an object are read from its bracket on. -/
theorem run_members_first_iff (begins : Begins text '{' behind) :
    (members (parts.map RecordPart.member) (behind.length + 1) true state).run behind = .ok (last, rest) ↔
      ∃ members, Spells text (.value (.object members)) rest ∧
        members.foldlM (takeMember? parts) state = some last := by
  rw [members_succ]
  constructor
  · intro read
    obtain ⟨more, middle, opened, onward⟩ := of_run_bind read
    have place := of_run_moreMembers_first opened
    cases more with
    | false =>
      obtain ⟨after, ends, rfl⟩ := place
      obtain ⟨rfl, rfl⟩ := Prod.mk.inj (Except.ok.inj onward)
      exact ⟨_, .emptyObject begins ends, rfl⟩
    | true =>
      obtain ⟨contents, key?, document, past, value, next, taken, rfl, quotes, colon, spells, takes,
        onward⟩ := run_memberThen_iff.mp onward
      have member : Spells behind (.member key? document) next := .member place quotes colon spells
      obtain ⟨others, more, takesMore⟩ := (run_members_iff member.length_lt).mp onward
      refine ⟨_, .object begins member more, ?_⟩
      rw [List.foldlM_cons, takes]
      exact takesMore
  · rintro ⟨listed, spells, takes⟩
    cases spells with
    | emptyObject opened ends =>
      obtain rfl := begins.unique opened rfl
      obtain rfl := Option.some.inj takes
      rw [run_bind_ok (run_moreMembers_of_end ends)]
      rfl
    | @object _ _ next _ key? document others opened first more =>
      obtain rfl := begins.unique opened rfl
      rw [List.foldlM_cons] at takes
      obtain ⟨taken, takesFirst, takesMore⟩ := Option.bind_eq_some_iff.mp takes
      have shorter := first.length_lt
      cases first with
      | member quoted quotes colon value =>
        rw [run_bind_ok (run_moreMembers_of_first quoted)]
        exact run_memberThen_iff.mpr ⟨_, key?, document, _, _, next, taken, rfl, quotes, colon,
          value, takesFirst, (run_members_iff shorter).mpr ⟨others, more, takesMore⟩⟩

/-- Records are understood in either form. -/
theorem understands_record (parts : List (RecordPart σ)) (state : σ) :
    Understands (record (parts.map RecordPart.member) state) (takeRecord? parts state) := by
  intro text rest last
  rw [record]
  constructor
  · intro read
    obtain ⟨c, behind, dropped, given⟩ := of_run_peek_bind read run_fail_ne
    have begins := begins_of_dropWhile dropped
    split at given
    case h_1 none => cases none
    case h_2 same =>
      obtain rfl := Option.some.inj same
      obtain ⟨documents, spells, takes⟩ := (run_values_first_iff begins).mp given
      exact ⟨_, spells, takes⟩
    case h_3 same =>
      obtain rfl := Option.some.inj same
      obtain ⟨listed, spells, takes⟩ := (run_members_first_iff begins).mp given
      exact ⟨_, spells, takes⟩
    case h_4 => exact absurd given run_mismatch_ne
  · rintro ⟨document, spells, takes⟩
    rw [run_peek_bind]
    cases document with
    | list documents =>
      obtain ⟨behind, begins⟩ := spells.begins_list
      rw [begins.dropWhile rfl]
      exact (run_values_first_iff begins).mpr ⟨documents, spells, takes⟩
    | object listed =>
      obtain ⟨behind, begins⟩ := spells.begins_object
      rw [begins.dropWhile rfl]
      exact (run_members_first_iff begins).mpr ⟨listed, spells, takes⟩
    | _ => cases takes

/-! ## Records by their members -/

/-- The parts of a record have keys of their own, do not interfere, and make up the state. -/
structure Independent (parts : List (RecordPart σ)) : Prop where
  keys : (parts.map RecordPart.key).Nodup
  stored : ∀ part ∈ parts, ∀ state value, part.part (part.store state value) = some value
  others : ∀ part ∈ parts, ∀ other ∈ parts, part.key ≠ other.key → ∀ state value,
    part.part (other.store state value) = part.part state
  determined : ∀ state other, (∀ part ∈ parts, part.part state = part.part other) → state = other

/-- What a record tells of a part: nothing, or its value, once. -/
def RecordPart.Told (part : RecordPart σ) (members : List (String × Document)) (state last : σ) : Prop :=
  match members.filter fun member => member.1 = part.key with
  | [] => part.part last = part.part state
  | [(_, document)] => part.part state = none ∧ ∃ value, part.meaning? document = some value ∧
      part.part last = some value
  | _ => False

theorem RecordPart.told_cons_of_ne {key : String} {document : Document}
    {members : List (String × Document)} (other : key ≠ part.key) :
    part.Told ((key, document) :: members) state last ↔ part.Told members state last := by
  unfold Told
  rw [List.filter_cons_of_neg (by simpa using other)]

/-- A member with the key of a part tells its value, and no other member may do so. -/
theorem RecordPart.told_cons_self {document : Document} {members : List (String × Document)}
    (stored : ∀ state value, part.part (part.store state value) = some value) :
    part.Told ((part.key, document) :: members) state last ↔
      part.part state = none ∧ ∃ value, part.meaning? document = some value ∧
        part.Told members (part.store state value) last := by
  unfold Told
  rw [List.filter_cons_of_pos (by simp)]
  cases rest : members.filter fun member => member.1 = part.key with
  | nil => simp only [stored]
  | cons next more =>
    simp only [stored, reduceCtorEq, false_and, false_iff, not_and, not_exists]
    intro _ value _
    cases more with
    | nil => exact id
    | cons => exact id

theorem RecordPart.told_congr {members : List (String × Document)} {other : σ}
    (same : part.part state = part.part other) :
    part.Told members state last ↔ part.Told members other last := by
  unfold Told
  rw [same]

theorem Independent.eq_of_key (independent : Independent parts) {other : RecordPart σ}
    (among : part ∈ parts) (amongOther : other ∈ parts) (same : other.key = part.key) :
    other = part :=
  List.inj_on_of_nodup_map independent.keys amongOther among same

/-- An object is read if its keys are texts and it tells each part of the record at most once. -/
theorem foldlM_takeMember?_eq_some_iff (independent : Independent parts)
    {members : List (Option String × Document)} :
    members.foldlM (takeMember? parts) state = some last ↔
      ∃ told, Document.textMembers? members = some told ∧
        ∀ part ∈ parts, part.Told told state last := by
  induction members generalizing state with
  | nil =>
    constructor
    · intro same
      obtain rfl := Option.some.inj same
      exact ⟨[], rfl, fun _ _ => rfl⟩
    · rintro ⟨told, texts, tells⟩
      obtain rfl : [] = told := Option.some.inj texts
      rw [independent.determined state last fun part among => (tells part among).symm]
      rfl
  | cons member members ih =>
    obtain ⟨key?, document⟩ := member
    rw [List.foldlM_cons]
    cases key? with
    | none =>
      constructor
      · intro taken
        cases taken
      · rintro ⟨told, texts, -⟩
        cases texts
    | some key =>
      simp only [Document.textMembers?_cons_eq_some_iff]
      cases found : parts.find? fun part => part.key = key with
      | none =>
        have foreign : ∀ part ∈ parts, key ≠ part.key := by
          intro part among same
          exact absurd same.symm (by simpa using List.find?_eq_none.mp found part among)
        have step : takeMember? parts state (some key, document) = some state := by
          simp only [takeMember?, found]
        rw [step, Option.bind_eq_bind, Option.bind_some, ih]
        constructor
        · rintro ⟨more, texts, tells⟩
          exact ⟨_, ⟨more, texts, rfl⟩, fun part among =>
            (RecordPart.told_cons_of_ne (foreign part among)).mpr (tells part among)⟩
        · rintro ⟨_, ⟨more, texts, rfl⟩, tells⟩
          exact ⟨more, texts, fun part among =>
            (RecordPart.told_cons_of_ne (foreign part among)).mp (tells part among)⟩
      | some part =>
        have among := List.mem_of_find?_eq_some found
        obtain rfl : part.key = key := by simpa using List.find?_some found
        have stored := independent.stored part among
        have kept {other : RecordPart σ} (amongOther : other ∈ parts) (differs : other.key ≠ part.key)
            (value : part.Value) {members : List (String × Document)} :
            other.Told members (part.store state value) last ↔ other.Told members state last :=
          RecordPart.told_congr (independent.others other amongOther part among differs state value)
        constructor
        · intro taken
          obtain ⟨middle, step, later⟩ := Option.bind_eq_some_iff.mp taken
          simp only [takeMember?, found] at step
          split at step
          case isTrue => cases step
          case isFalse unread =>
            obtain ⟨value, means, rfl⟩ := Option.map_eq_some_iff.mp step
            obtain ⟨more, texts, tells⟩ := ih.mp later
            refine ⟨_, ⟨more, texts, rfl⟩, fun other amongOther => ?_⟩
            by_cases same : other.key = part.key
            · rw [independent.eq_of_key among amongOther same, RecordPart.told_cons_self stored]
              exact ⟨by simpa using unread, value, means, tells part among⟩
            · rw [RecordPart.told_cons_of_ne (Ne.symm same)]
              exact (kept amongOther same value).mp (tells other amongOther)
        · rintro ⟨_, ⟨more, texts, rfl⟩, tells⟩
          obtain ⟨unread, value, means, told⟩ :=
            (RecordPart.told_cons_self stored).mp (tells part among)
          have step : takeMember? parts state (some part.key, document) =
              some (part.store state value) := by
            simp only [takeMember?, found, unread, Option.isSome_none, Bool.false_eq_true, ↓reduceIte,
              RecordPart.take?, means, Option.map_some]
          rw [step, Option.bind_eq_bind, Option.bind_some, ih]
          refine ⟨more, texts, fun other amongOther => ?_⟩
          by_cases same : other.key = part.key
          · rw [independent.eq_of_key among amongOther same]
            exact told
          · rw [kept amongOther same value]
            exact (RecordPart.told_cons_of_ne (Ne.symm same)).mp (tells other amongOther)

theorem Independent.find?_key (independent : Independent parts) (among : part ∈ parts) :
    parts.find? (fun other => other.key = part.key) = some part := by
  cases found : parts.find? fun other => other.key = part.key with
  | none =>
    have differs := List.find?_eq_none.mp found part among
    simp at differs
  | some other =>
    have same : other.key = part.key := by simpa using List.find?_some found
    rw [independent.eq_of_key among (List.mem_of_find?_eq_some found) same]

/-- A list is read like an object that has its elements as members, in the order of the parts. -/
theorem takeItems?_eq_foldlM (independent : Independent parts) {later : List (RecordPart σ)}
    (among : later ⊆ parts) (distinct : (later.map RecordPart.key).Nodup)
    (unread : ∀ part ∈ later, part.part state = none) (documents : List Document) :
    takeItems? later state documents =
      if documents.length ≤ later.length then
        (((later.map RecordPart.key).zip documents).map fun (key, document) =>
          (some key, document)).foldlM (takeMember? parts) state
      else none := by
  induction later generalizing state documents with
  | nil => cases documents <;> rfl
  | cons part later ih =>
    cases documents with
    | nil => rfl
    | cons document documents =>
      rw [List.map_cons, List.nodup_cons] at distinct
      have here := List.mem_cons_self (a := part) (l := later)
      have step : takeMember? parts state (some part.key, document) = part.take? state document := by
        simp only [takeMember?, independent.find?_key (among here), unread part here,
          Option.isSome_none, Bool.false_eq_true, ↓reduceIte]
      rw [takeItems?, List.map_cons, List.zip_cons_cons, List.map_cons, List.foldlM_cons, step]
      simp only [List.length_cons, Nat.add_le_add_iff_right]
      cases taken : part.take? state document with
      | none =>
        split <;> rfl
      | some next =>
        obtain ⟨value, -, rfl⟩ := Option.map_eq_some_iff.mp taken
        refine ih (fun other amongLater => among (List.mem_cons_of_mem _ amongLater)) distinct.2
          (fun other amongLater => ?_) documents
        have differs : other.key ≠ part.key := by
          intro same
          exact distinct.1 (List.mem_map.mpr ⟨other, amongLater, same⟩)
        rw [independent.others other (among (List.mem_cons_of_mem _ amongLater)) part (among here)
          differs]
        exact unread other (List.mem_cons_of_mem _ amongLater)

theorem textMembers?_map_some (members : List (String × Document)) :
    Document.textMembers? (members.map fun (key, document) => (some key, document)) =
      some members := by
  induction members with
  | nil => rfl
  | cons member members ih =>
    rw [List.map_cons]
    exact Document.textMembers?_cons_eq_some_iff.mpr ⟨members, ih, rfl⟩

/-- **A record is read if it tells each of its parts at most once.** What else an object holds does not
matter. -/
theorem takeRecord?_eq_some_iff (independent : Independent parts)
    (unread : ∀ part ∈ parts, part.part state = none) {document : Document} :
    takeRecord? parts state document = some last ↔
      ∃ members, document.members? (parts.map RecordPart.key) = some members ∧
        ∀ part ∈ parts, part.Told members state last := by
  cases document with
  | object members => exact foldlM_takeMember?_eq_some_iff independent
  | list documents =>
    rw [takeRecord?, takeItems?_eq_foldlM independent (List.Subset.refl _) independent.keys unread,
      Document.members?, List.length_map]
    split
    case isTrue =>
      rw [foldlM_takeMember?_eq_some_iff independent, textMembers?_map_some]
    case isFalse =>
      constructor
      · intro taken
        cases taken
      · rintro ⟨members, none, -⟩
        cases none
  | _ =>
    constructor
    · intro taken
      cases taken
    · rintro ⟨members, none, -⟩
      cases none

/-- A part that has a value in the end is told by the only member with its key. -/
theorem RecordPart.told_iff_of_isSome {members : List (String × Document)}
    (unread : part.part state = none) (has : (part.part last).isSome = true) :
    part.Told members state last ↔
      Document.told? members part.key part.meaning? = part.part last := by
  obtain ⟨value, has⟩ := Option.isSome_iff_exists.mp has
  unfold Told Document.told? Document.only?
  cases told : members.filter fun member => member.1 = part.key with
  | nil => simp [has, unread]
  | cons member others =>
    cases others with
    | nil => simp [has, unread, eq_comm]
    | cons => simp [has]

/-- A record that is understood is understood with what it makes up. -/
theorem Understands.complete {reader : Reader σ} {meaning? : Document → Option σ}
    (understands : Understands reader meaning?) (complete? : σ → Option α) :
    Understands (do complete (complete? (← reader)))
      fun document => (meaning? document).bind complete? := by
  intro text rest value
  constructor
  · intro read
    obtain ⟨state, middle, given, made⟩ := of_run_bind read
    obtain ⟨document, spells, means⟩ := understands.mp given
    cases completed : complete? state with
    | none =>
      rw [completed] at made
      exact absurd made run_fail_ne
    | some whole =>
      rw [completed] at made
      obtain ⟨rfl, rfl⟩ := Prod.mk.inj (Except.ok.inj made)
      exact ⟨document, spells, Option.bind_eq_some_iff.mpr ⟨state, means, completed⟩⟩
  · rintro ⟨document, spells, means⟩
    obtain ⟨state, first, completed⟩ := Option.bind_eq_some_iff.mp means
    refine (run_bind_ok (understands.mpr ⟨document, spells, first⟩)).trans ?_
    rw [completed]
    rfl

/-- A record is understood as the value whose parts it tells, each under its key, if what is read of it
is complete with them. -/
theorem understands_complete (independent : Independent parts)
    (unread : ∀ part ∈ parts, part.part state = none) {complete? : σ → Option α} {given : α → σ}
    {fits : α → Prop}
    (completes : ∀ last value, complete? last = some value ↔ last = given value ∧ fits value)
    (whole : ∀ part ∈ parts, ∀ value, (part.part (given value)).isSome = true)
    {meaning? : Document → Option α}
    (means : ∀ document value, meaning? document = some value ↔
      fits value ∧ ∃ members, document.members? (parts.map RecordPart.key) = some members ∧
        ∀ part ∈ parts,
          Document.told? members part.key part.meaning? = part.part (given value)) :
    Understands (do complete (complete? (← record (parts.map RecordPart.member) state))) meaning? := by
  have same (document : Document) :
      (takeRecord? parts state document).bind complete? = meaning? document := by
    refine Option.ext fun value => ?_
    have tells {members : List (String × Document)} (part : RecordPart σ) (among : part ∈ parts) :
        part.Told members state (given value) ↔
          Document.told? members part.key part.meaning? = part.part (given value) :=
      part.told_iff_of_isSome (unread part among) (whole part among value)
    rw [means, Option.bind_eq_some_iff]
    simp only [completes]
    constructor
    · rintro ⟨_, taken, rfl, fitting⟩
      obtain ⟨members, listed, told⟩ := (takeRecord?_eq_some_iff independent unread).mp taken
      exact ⟨fitting, members, listed, fun part among => (tells part among).mp (told part among)⟩
    · rintro ⟨fitting, members, listed, told⟩
      have taken := (takeRecord?_eq_some_iff independent unread).mpr
        ⟨members, listed, fun part among => (tells part among).mpr (told part among)⟩
      exact ⟨_, taken, rfl, fitting⟩
  rw [← funext same]
  intro text rest value
  exact Understands.complete (understands_record parts state) complete?

end Reader

end JsxTracking.Json
