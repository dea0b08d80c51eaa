import Mathlib.Data.List.Nodup
import Mathlib.Data.List.TakeDrop
import SchemaGraph.Proofs.Json.Text

-- That what is printed is read back.
namespace SchemaGraph.Json

-- A value of integers and texts without halves, whose objects have fields of different names.
inductive Plain : Json → Prop
  | null : Plain null
  | bool (b : Bool) : Plain (bool b)
  | int (n : Int) : Plain (int n)
  | str (s : String) : Plain (str s)
  | arr {items} (h : ∀ item ∈ items, Plain item) : Plain (arr items)
  | obj {fields} (hn : (fields.map Prod.fst).Nodup) (h : ∀ field ∈ fields, Plain field.2) :
    Plain (obj fields)

structure Reader.Room (limits : Limits) (fuel level : Nat) (length : Nat) : Prop where
  fuel    : length < fuel
  nesting : level + length ≤ limits.nesting
  digits  : length ≤ limits.digits

def Reader.Stops (rest : List Char) : Prop :=
  ∀ c ∈ rest.head?, c = ',' ∨ c = ']' ∨ c = '\x7d' ∨ c = '\n'

structure IsRead (value : Json) : Prop where
  value_eq :
    ∀ (style : Style) (depth : Nat) {limits : Limits} {fuel level : Nat} {rest : List Char},
    Reader.Room limits fuel level (printAt style depth value).toList.length → Reader.Stops rest →
      Reader.value limits fuel level ((printAt style depth value).toList ++ rest) =
        .ok (value, rest)

namespace Reader

variable {limits : Limits} {fuel level length : Nat} {rest : List Char} {c : Char} {n : Nat}

theorem Room.exists_fuel (h : Room limits fuel level length) : ∃ fuel', fuel = fuel' + 1 :=
  Nat.exists_eq_succ_of_ne_zero (Nat.ne_of_gt (Nat.zero_lt_of_lt h.fuel))

theorem Room.pred (h : Room limits (fuel + 1) level (length + 1)) (hn : n ≤ length) :
    Room limits fuel level n := by
  obtain ⟨hfuel, hnesting, hdigits⟩ := h
  exact ⟨by omega, by omega, by omega⟩

section Number

theorem Stops.not_isDigit (h : Stops (c :: rest)) : isDigit c = false := by
  rcases h c rfl with rfl | rfl | rfl | rfl <;> rfl

theorem head?_toDigits (hn : n ≠ 0) : (Nat.toDigits 10 n).head? ≠ some '0' := by
  induction n using Nat.strongRecOn
  case ind n hi =>
    by_cases hl : n < 10
    case pos =>
      rw [Nat.toDigits_of_lt_base hl, List.head?_singleton]
      exact fun h => hn (Nat.digitChar_eq_zero.mp (Option.some.inj h))
    case neg =>
      have hh := hi (n / 10) (by omega) (by omega)
      rw [Nat.toDigits_of_base_le (by decide) (Nat.le_of_not_lt hl)]
      cases hds : Nat.toDigits 10 (n / 10)
      case nil       => exact absurd hds Nat.toDigits_ne_nil
      case cons d ds => rwa [hds] at hh

theorem digitsValue_toDigits (n : Nat) : digitsValue (Nat.toDigits 10 n) = n :=
  Nat.ofDigitChars_ten_toDigits

theorem span_toDigits (n : Nat) (h : Stops rest) :
    (Nat.toDigits 10 n ++ rest).span isDigit = (Nat.toDigits 10 n, rest) := by
  have hd : ∀ d ∈ Nat.toDigits 10 n, isDigit d := fun d hd =>
    Nat.isDigit_of_mem_toDigits (by decide) (by decide) hd
  rw [List.span_eq_takeWhile_dropWhile, List.takeWhile_append_of_pos hd,
    List.dropWhile_append_of_pos hd]
  cases rest
  case nil      => simp
  case cons c _ => simp [h.not_isDigit]

theorem natural_toDigits (n : Nat) (h : Stops rest) :
    natural (Nat.toDigits 10 n ++ rest) = .ok (Nat.toDigits 10 n, rest) := by
  by_cases hn : n = 0
  case pos => rw [hn]; rfl
  case neg =>
    have hs := span_toDigits n h
    have hh := head?_toDigits hn
    cases hds : Nat.toDigits 10 n
    case nil       => exact absurd hds Nat.toDigits_ne_nil
    case cons d ds =>
      rw [hds] at hs hh
      rw [List.cons_append] at hs ⊢
      rw [natural]
      · rw [hs]
      · intro cs he
        exact hh (congrArg some (List.cons.inj he).left)

theorem fraction_of_stops (h : Stops rest) : fraction rest = ([], rest) := by
  cases rest
  case nil       => rfl
  case cons c cs => rcases h c rfl with rfl | rfl | rfl | rfl <;> rfl

theorem exponent_of_stops (h : Stops rest) : exponent rest = (none, rest) := by
  cases rest
  case nil       => rfl
  case cons c cs => rcases h c rfl with rfl | rfl | rfl | rfl <;> rfl

theorem unsignedNumber_toDigits (sign : Int) (hd : (Nat.toDigits 10 n).length ≤ limits.digits)
    (h : Stops rest) : unsignedNumber limits sign (Nat.toDigits 10 n ++ rest)
      = .ok (int (sign * n), rest) := by
  simp [unsignedNumber, natural_toDigits n h, fraction_of_stops h, exponent_of_stops h, bind,
    Except.bind, pure, Except.pure, Nat.not_lt.mpr hd, digitsValue_toDigits]

end Number

theorem constant?_digit (h : c.isDigit) (cs : List Char) : constant? (c :: cs) = none := by
  have hne (d : Char) (hd : d.isDigit = false) : d ≠ c := fun he => by simp [he, h] at hd
  simp [constant?, constants, after?, hne]

theorem constant?_minus_digit (h : c.isDigit) (cs : List Char) :
    constant? ('-' :: c :: cs) = none := by
  have hne : 'I' ≠ c := fun he => by simp [←he] at h
  simp [constant?, constants, after?, hne]

theorem value_eq_number (hq : c ≠ '"') (ha : c ≠ '[') (ho : c ≠ '\x7b') {cs : List Char}
    (hc : constant? (c :: cs) = none) :
    value limits (fuel + 1) level (c :: cs) = number limits (c :: cs) := by
  rw [value, hc]
  all_goals simp_all

theorem value_toDigits (hd : (Nat.toDigits 10 n).length ≤ limits.digits) (h : Stops rest) :
    value limits (fuel + 1) level (Nat.toDigits 10 n ++ rest) = .ok (int n, rest) := by
  have hu := unsignedNumber_toDigits (n := n) 1 hd h
  cases hds : Nat.toDigits 10 n
  case nil       => exact absurd hds Nat.toDigits_ne_nil
  case cons d ds =>
    have hdigit : d.isDigit :=
      Nat.isDigit_of_mem_toDigits (by decide) (by decide) (hds ▸ List.mem_cons_self)
    have hne {c : Char} (hc : c.isDigit = false) : d ≠ c := fun he => by simp [←he, hdigit] at hc
    rw [hds, List.cons_append] at hu
    rw [List.cons_append, value_eq_number (hne rfl) (hne rfl) (hne rfl) (constant?_digit hdigit _),
      number, hu, Int.one_mul]
    exact fun _ he => hne rfl (List.cons.inj he).left

theorem value_minus_toDigits (hd : (Nat.toDigits 10 n).length ≤ limits.digits) (h : Stops rest) :
    value limits (fuel + 1) level ('-' :: (Nat.toDigits 10 n ++ rest)) = .ok (int (-n), rest) := by
  have hu := unsignedNumber_toDigits (n := n) (-1) hd h
  have hc : constant? ('-' :: (Nat.toDigits 10 n ++ rest)) = none := by
    cases hds : Nat.toDigits 10 n
    case nil       => exact absurd hds Nat.toDigits_ne_nil
    case cons d ds =>
      exact constant?_minus_digit
        (Nat.isDigit_of_mem_toDigits (by decide) (by decide) (hds ▸ List.mem_cons_self)) _
  rw [value_eq_number (by decide) (by decide) (by decide) hc, number, hu, Int.neg_one_mul]

end Reader

theorem isRead_int (n : Int) : IsRead (int n) := by
  constructor
  intro style depth limits fuel level rest room hs
  obtain ⟨fuel, rfl⟩ := room.exists_fuel
  cases n
  case ofNat n =>
    have ht : (printAt style depth (int (.ofNat n))).toList = Nat.toDigits 10 n :=
      congrArg String.toList Nat.repr_eq_ofList_toDigits |>.trans String.toList_ofList
    rw [ht] at room ⊢
    exact Reader.value_toDigits room.digits hs
  case negSucc n =>
    have ht : (printAt style depth (int (.negSucc n))).toList = '-' :: Nat.toDigits 10 (n + 1) := by
      show ("-" ++ (n + 1).repr).toList = _
      simp [Nat.repr_eq_ofList_toDigits]
    rw [ht] at room ⊢
    exact Reader.value_minus_toDigits (Nat.le_of_succ_le room.digits) hs

theorem isRead_null : IsRead null := by
  constructor
  intro style depth limits fuel level rest room _
  obtain ⟨fuel, rfl⟩ := room.exists_fuel
  rw [printAt]
  rfl

theorem isRead_bool (b : Bool) : IsRead (bool b) := by
  constructor
  intro style depth limits fuel level rest room _
  obtain ⟨fuel, rfl⟩ := room.exists_fuel
  rw [printAt]
  cases b <;> rfl

theorem isRead_str (s : String) : IsRead (str s) := by
  constructor
  intro style depth limits fuel level rest room _
  obtain ⟨fuel, rfl⟩ := room.exists_fuel
  exact value_quote limits fuel level s

theorem IsRead.exists_cons {value : Json} (h : IsRead value) (style : Style) (depth : Nat) :
    ∃ c cs, (printAt style depth value).toList = c :: cs ∧ Reader.isSpace c = false ∧ c ≠ ']' ∧
      c ≠ '\x7d' := by
  have hr : Reader.Stops [] := nofun
  let n := (printAt style depth value).toList.length
  have room : Reader.Room ⟨n, n⟩ (n + 1) 0 n :=
    ⟨Nat.lt_succ_self n, Nat.le_of_eq (Nat.zero_add n), Nat.le_refl n⟩
  have hv := h.value_eq style depth room hr
  rw [List.append_nil] at hv
  cases ht : (printAt style depth value).toList
  case nil       => rw [ht] at hv; cases hv
  case cons c cs =>
    refine ⟨c, cs, rfl, ?_⟩
    rw [ht] at hv
    have key {d : Char} (hd : Reader.value ⟨n, n⟩ (n + 1) 0 (d :: cs) = .error .malformed) :
        c ≠ d := fun he => by rw [he, hd] at hv; cases hv
    have hspace : Reader.isSpace c = false := by
      simp [Reader.isSpace, key (d := ' ') rfl, key (d := '\t') rfl, key (d := '\n') rfl,
        key (d := '\r') rfl]
    exact ⟨hspace, key rfl, key rfl⟩

theorem IsRead.skipSpace {value : Json} (h : IsRead value) (style : Style) (depth : Nat)
    (cs : List Char) : Reader.skipSpace ((printAt style depth value).toList ++ cs)
      = (printAt style depth value).toList ++ cs := by
  obtain ⟨c, cs', ht, hc, -⟩ := h.exists_cons style depth
  rw [ht, List.cons_append, skipSpace_of_not_isSpace hc]

namespace Style

variable (style : Style) (depth : Nat)

def gap : List Char :=
  if style.isSpread then '\n' :: List.replicate (2 * depth) ' ' else []

def more (items : List String) : List Char :=
  items.flatMap fun item => ',' :: (style.gap depth ++ item.toList)

theorem skipSpace_gap (cs : List Char) :
    Reader.skipSpace (style.gap depth ++ cs) = Reader.skipSpace cs := by
  rw [gap, Reader.skipSpace]
  split
  case isFalse => rfl
  case isTrue  =>
    refine List.dropWhile_append_of_pos fun c hc => ?_
    rcases List.mem_cons.mp hc with rfl | hc
    case inl => rfl
    case inr => exact List.eq_of_mem_replicate hc ▸ rfl

theorem stops_gap (h : Reader.Stops cs) : Reader.Stops (style.gap depth ++ cs) := by
  rw [gap]
  split
  case isFalse => exact h
  case isTrue  => exact fun c hc => .inr (.inr (.inr (Option.some.inj hc).symm))

theorem stops_more (items : List String) {cs : List Char} (h : Reader.Stops cs) :
    Reader.Stops (style.more depth items ++ cs) := by
  cases items
  case nil  => exact h
  case cons => exact fun c hc => .inl (Option.some.inj hc).symm

theorem more_cons (item : String) (items : List String) : style.more depth (item :: items)
    = ',' :: (style.gap depth ++ (item.toList ++ style.more depth items)) := by
  simp [more]

theorem toList_field_append (name value : String) (cs : List Char) :
    (style.field name value).toList ++ cs = (style.quote name).toList ++
      ':' :: (if style.isSpread then ' ' :: (value.toList ++ cs) else value.toList ++ cs) := by
  rw [field]
  cases style.isSpread <;> simp

theorem skipSpace_field (name value : String) (cs : List Char) :
    Reader.skipSpace ((style.field name value).toList ++ cs)
      = (style.field name value).toList ++ cs := by
  rw [toList_field_append, skipSpace_quote]

theorem exists_field (name value : String) :
    ∃ cs, (style.field name value).toList = '"' :: cs := by
  rw [←List.append_nil (style.field name value).toList, toList_field_append, toList_quote]
  exact ⟨_, rfl⟩

theorem intercalate_cons (separator item : List Char) (items : List (List Char)) :
    separator.intercalate (item :: items) = item ++ items.flatMap (separator ++ ·) := by
  induction items generalizing item
  case nil            => simp
  case cons next _ hi => rw [List.intercalate_cons_cons, hi]; simp

theorem toList_indentation : (indentation depth).toList = List.replicate (2 * depth) ' ' := by
  rw [indentation, String.pushn]
  generalize 2 * depth = n
  induction n
  case zero      => rfl
  case succ n hi => rw [Nat.repeat, String.toList_push, hi, List.replicate_succ']

theorem toList_block (first last item : String) (items : List String) :
    (style.block first last depth (item :: items)).toList =
      first.toList ++ (style.gap (depth + 1) ++
      (item.toList ++ (style.more (depth + 1) items ++ (style.gap depth ++ last.toList)))) := by
  rw [block, gap, gap, more]
  cases hs : style.isSpread
  case false =>
    simp [hs, gap, String.toList_intercalate, intercalate_cons, List.flatMap_map]
  case true  =>
    simp [hs, gap, String.toList_intercalate, intercalate_cons, List.flatMap_map,
      toList_indentation]

end Style
section Block

variable {style : Style} {depth : Nat} {limits : Limits} {fuel level : Nat} {rest : List Char}

theorem items_eq {cs : List Char} {v : Json}
    (hv : Reader.value limits fuel level cs = .ok (v, rest)) (done : List Json) :
    Reader.items limits (fuel + 1) level done cs = match Reader.skipSpace rest with
        | ',' :: cs => Reader.items limits fuel level (v :: done) (Reader.skipSpace cs)
        | ']' :: cs => .ok (arr (v :: done).reverse, cs)
        | _         => .error .malformed := by
  rw [Reader.items, hv]
  rfl

theorem items_printItems {item : Json} {items : List Json}
    (h : ∀ v ∈ item :: items, IsRead v) (done : List Json)
    (room : Reader.Room limits fuel level ((printAt style depth item).toList.length
      + (style.more depth (printItems style depth items)).length + 1)) (outer : Nat) :
    Reader.items limits fuel level done ((printAt style depth item).toList
      ++ (style.more depth (printItems style depth items) ++ (style.gap outer ++ ']' :: rest)))
      = .ok (arr (done.reverse ++ item :: items), rest) := by
  have hend : Reader.Stops (style.gap outer ++ ']' :: rest) :=
    style.stops_gap outer fun c hc => .inr (.inl (Option.some.inj hc).symm)
  induction items generalizing item done fuel
  case nil =>
    obtain ⟨fuel, rfl⟩ := room.exists_fuel
    have hv := (h item List.mem_cons_self).value_eq style depth (room.pred (Nat.le_add_right ..))
      (style.stops_more depth (printItems style depth []) hend)
    rw [items_eq hv, printItems]
    simp only [Style.more, List.flatMap_nil, List.nil_append, Style.skipSpace_gap,
      skipSpace_of_not_isSpace (c := ']') rfl, List.reverse_cons]
  case cons next items hi =>
    obtain ⟨fuel, rfl⟩ := room.exists_fuel
    have hv := (h item List.mem_cons_self).value_eq style depth (room.pred (Nat.le_add_right ..))
      (style.stops_more depth (printItems style depth (next :: items)) hend)
    have hnext := h next (List.mem_cons_of_mem _ List.mem_cons_self)
    rw [items_eq hv, printItems, Style.more_cons]
    rw [printItems, Style.more_cons] at room
    simp only [List.cons_append, List.append_assoc, skipSpace_of_not_isSpace (c := ',') rfl,
      Style.skipSpace_gap, hnext.skipSpace]
    rw [hi (fun v hv => h v (List.mem_cons_of_mem _ hv)) (item :: done)
      (room.pred (by simp; omega))]
    simp

theorem fields_printFields {field : String × Json} {fields : List (String × Json)}
    (h : ∀ f ∈ field :: fields, IsRead f.2) (done : List (String × Json))
    (room : Reader.Room limits fuel level
      ((style.field field.1 (printAt style depth field.2)).toList.length
        + (style.more depth (printFields style depth fields)).length + 1)) (outer : Nat) :
    Reader.fields limits fuel level done ((style.field field.1 (printAt style depth field.2)).toList
      ++ (style.more depth (printFields style depth fields) ++ (style.gap outer ++ '\x7d' :: rest)))
      = .ok (Reader.objectOf (done.reverse ++ field :: fields).reverse, rest) := by
  have hend : Reader.Stops (style.gap outer ++ '\x7d' :: rest) :=
    style.stops_gap outer fun c hc => .inr (.inr (.inl (Option.some.inj hc).symm))
  have hlength (f : String × Json) : (printAt style depth f.2).toList.length
      ≤ (style.field f.1 (printAt style depth f.2)).toList.length := by
    have := style.toList_field_append f.1 (printAt style depth f.2) []
    simp only [List.append_nil] at this
    rw [this]
    split <;> simp <;> omega
  induction fields generalizing field done fuel
  case nil =>
    obtain ⟨fuel, rfl⟩ := room.exists_fuel
    have hf := h field List.mem_cons_self
    have hv := hf.value_eq style depth (room.pred (Nat.le_add_right_of_le (hlength field)))
      (style.stops_more depth (printFields style depth []) hend)
    rw [style.toList_field_append, fields_eq (hf.skipSpace ..) hv, printFields]
    simp only [Style.more, List.flatMap_nil, List.nil_append, Style.skipSpace_gap,
      skipSpace_of_not_isSpace (c := '\x7d') rfl, List.reverse_append, List.reverse_reverse]
    rfl
  case cons next fields hi =>
    obtain ⟨fuel, rfl⟩ := room.exists_fuel
    have hf := h field List.mem_cons_self
    have hv := hf.value_eq style depth (room.pred (Nat.le_add_right_of_le (hlength field)))
      (style.stops_more depth (printFields style depth (next :: fields)) hend)
    rw [style.toList_field_append, fields_eq (hf.skipSpace ..) hv, printFields, Style.more_cons]
    rw [printFields, Style.more_cons] at room
    simp only [List.cons_append, List.append_assoc, skipSpace_of_not_isSpace (c := ',') rfl,
      Style.skipSpace_gap, Style.skipSpace_field]
    rw [hi (fun v hv => h v (List.mem_cons_of_mem _ hv)) (field :: done)
      (room.pred (by simp; omega))]
    simp

theorem toList_print_arr (item : Json) (items : List Json) :
    (printAt style depth (arr (item :: items))).toList = '[' :: (style.gap (depth + 1) ++
      ((printAt style (depth + 1) item).toList ++
        (style.more (depth + 1) (printItems style (depth + 1) items) ++
          (style.gap depth ++ [']'])))) := by
  rw [printAt, printItems, Style.toList_block]
  rfl

theorem toList_print_obj (field : String × Json) (fields : List (String × Json)) :
    (printAt style depth (obj (field :: fields))).toList = '\x7b' :: (style.gap (depth + 1) ++
      ((style.field field.1 (printAt style (depth + 1) field.2)).toList ++
        (style.more (depth + 1) (printFields style (depth + 1) fields) ++
          (style.gap depth ++ ['\x7d'])))) := by
  rw [printAt, printFields, Style.toList_block]
  rfl

theorem value_bracket (hl : level < limits.nesting) {c : Char} {cs cs' : List Char}
    (hs : Reader.skipSpace cs = c :: cs') (hc : c ≠ ']') :
    Reader.value limits (fuel + 1) level ('[' :: cs)
      = Reader.items limits fuel (level + 1) [] (c :: cs') := by
  rw [Reader.value, if_neg (Nat.not_le.mpr hl), hs]
  split
  case h_1 he => exact absurd (List.cons.inj he).left hc
  case h_2    => rfl

theorem value_brace (hl : level < limits.nesting) {c : Char} {cs cs' : List Char}
    (hs : Reader.skipSpace cs = c :: cs') (hc : c ≠ '\x7d') :
    Reader.value limits (fuel + 1) level ('\x7b' :: cs)
      = Reader.fields limits fuel (level + 1) [] (c :: cs') := by
  rw [Reader.value, if_neg (Nat.not_le.mpr hl), hs]
  split
  case h_1 he => exact absurd (List.cons.inj he).left hc
  case h_2    => rfl

theorem isRead_arr {items : List Json} (h : ∀ item ∈ items, IsRead item) : IsRead (arr items) := by
  constructor
  intro style depth limits fuel level rest room _
  obtain ⟨fuel, rfl⟩ := room.exists_fuel
  cases items
  case nil =>
    have ht : (printAt style depth (arr [])).toList = ['[', ']'] := by
      simp [printAt, printItems, Style.block]
    rw [ht] at room ⊢
    have hl : ¬ limits.nesting ≤ level := Nat.not_le.mpr (Nat.lt_of_succ_lt room.nesting)
    rw [List.cons_append, Reader.value, if_neg hl]
    rfl
  case cons item items =>
    rw [toList_print_arr] at room ⊢
    obtain ⟨hfuel, hnesting, hdigits⟩ := room
    simp only [List.length_cons, List.length_append, List.length_nil] at hfuel hnesting hdigits
    have hi := @items_printItems style (depth + 1) limits fuel (level + 1) rest item items h []
      ⟨by omega, by omega, by omega⟩ depth
    obtain ⟨c, cs, ht, -, hc, -⟩ := (h item List.mem_cons_self).exists_cons style (depth + 1)
    have hs (cs' : List Char) := (h item List.mem_cons_self).skipSpace style (depth + 1) cs'
    simp only [ht, List.cons_append] at hi hs
    simp only [List.cons_append, List.append_assoc, ht]
    rw [value_bracket (by omega) (c := c) ((Style.skipSpace_gap ..).trans (hs _)) hc]
    exact hi

theorem objectOf_of_nodup {fields : List (String × Json)} (h : (fields.map Prod.fst).Nodup) :
    Reader.objectOf fields.reverse = obj fields := by
  have key {fs : List (String × Json)} (h : (fs.map Prod.fst).Nodup) :
      (fs.eraseDupsBy fun a b => a.1 == b.1) = fs := by
    induction fs
    case nil          => rfl
    case cons f fs hi =>
      obtain ⟨hn, h⟩ := List.nodup_cons.mp h
      have hf : fs.filter (fun g => decide ((g.1 == f.1) = false)) = fs :=
        List.filter_eq_self.mpr fun g hg => by
          simpa using fun he : g.1 = f.1 => hn (he ▸ List.mem_map_of_mem hg)
      rw [List.eraseDupsBy_cons, hf, hi h]
  rw [Reader.objectOf, key (by rwa [List.map_reverse, List.nodup_reverse]), List.reverse_reverse]

theorem isRead_obj {fields : List (String × Json)} (hn : (fields.map Prod.fst).Nodup)
    (h : ∀ field ∈ fields, IsRead field.2) : IsRead (obj fields) := by
  constructor
  intro style depth limits fuel level rest room _
  obtain ⟨fuel, rfl⟩ := room.exists_fuel
  cases fields
  case nil =>
    have ht : (printAt style depth (obj [])).toList = ['\x7b', '\x7d'] := by
      simp [printAt, printFields, Style.block]
    rw [ht] at room ⊢
    have hl : ¬ limits.nesting ≤ level := Nat.not_le.mpr (Nat.lt_of_succ_lt room.nesting)
    rw [List.cons_append, Reader.value, if_neg hl]
    rfl
  case cons field fields =>
    rw [toList_print_obj] at room ⊢
    obtain ⟨hfuel, hnesting, hdigits⟩ := room
    simp only [List.length_cons, List.length_append, List.length_nil] at hfuel hnesting hdigits
    have hi := @fields_printFields style (depth + 1) limits fuel (level + 1) rest field fields h []
      ⟨by omega, by omega, by omega⟩ depth
    have hs (cs' : List Char) :=
      style.skipSpace_field field.1 (printAt style (depth + 1) field.2) cs'
    obtain ⟨cs, ht⟩ := style.exists_field field.1 (printAt style (depth + 1) field.2)
    simp only [ht, List.cons_append] at hi hs
    simp only [List.cons_append, List.append_assoc, List.nil_append, ht]
    rw [value_brace (by omega) ((Style.skipSpace_gap ..).trans (hs _)) (by decide), hi,
      List.reverse_nil, List.nil_append, objectOf_of_nodup hn]

end Block

theorem Plain.isRead {value : Json} (h : value.Plain) : IsRead value := by
  induction h
  case null           => exact isRead_null
  case bool b         => exact isRead_bool b
  case int n          => exact isRead_int n
  case str s          => exact isRead_str s
  case arr hi         => exact isRead_arr hi
  case obj hn _ hi    => exact isRead_obj hn hi

-- What is printed for a plain value is read as that value by every reader whose limits are as great
-- as the text is long.
theorem Plain.parse_print {value : Json} (h : value.Plain) {limits : Limits}
    (hn : value.print.length ≤ limits.nesting) (hd : value.print.length ≤ limits.digits) :
    parse limits value.print.toList = .ok value := by
  have hs := h.isRead.skipSpace .readable 0 []
  have hv := @(h.isRead).value_eq .readable 0 limits (value.print.toList.length + 1) 0 []
    ⟨Nat.lt_succ_self _, (Nat.zero_add _).symm ▸ hn, hd⟩ nofun
  rw [List.append_nil, ←print] at hs hv
  rw [parse, hs, hv]
  rfl

theorem Plain.eq_of_print_eq {value value' : Json} (h : value.Plain) (h' : value'.Plain)
    (he : value.print = value'.print) : value = value' := by
  let limits : Limits := ⟨value.print.length, value.print.length⟩
  have hv : parse limits value.print.toList = .ok value :=
    h.parse_print (Nat.le_refl _) (Nat.le_refl _)
  have hv' : parse limits value'.print.toList = .ok value' :=
    h'.parse_print (he ▸ Nat.le_refl _) (he ▸ Nat.le_refl _)
  exact Except.ok.inj (hv.symm.trans (he ▸ hv'))

end SchemaGraph.Json
