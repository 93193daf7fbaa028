import CycleWatch.Log.Redaction
/-!
# What redaction hides and what it keeps

Two values are alike when they are the same but for what stands under secret keys. A value and its
redaction are alike (`alike_redact`), values that are alike have one redaction
(`redact_eq_of_alike`), and in a redaction every secret member holds the placeholder
(`eq_placeholder_of_hasMember_redact`). So a redaction tells everything that is no secret, and nothing
else.
-/
namespace CycleWatch

/-- The member `k` with the value `v` stands in the value, at some depth. -/
inductive Json.HasMember (k : String) (v : Json) : Json → Prop
  /-- It is a member of the object itself. -/
  | here {members : List (String × Json)} : (k, v) ∈ members → HasMember k v (.obj members)
  /-- It stands in an item of the list. -/
  | item {x : Json} {items : List Json} : x ∈ items → HasMember k v x → HasMember k v (.arr items)
  /-- It stands in the value of a member. -/
  | member {k' : String} {x : Json} {members : List (String × Json)} :
    (k', x) ∈ members → HasMember k v x → HasMember k v (.obj members)

namespace Log

mutual

/-- The values are the same but for what stands under secret keys. -/
inductive Alike : Json → Json → Prop
  | null : Alike .null .null
  | bool (b : Bool) : Alike (.bool b) (.bool b)
  | num (n : Json.Number) : Alike (.num n) (.num n)
  | str (s : String) : Alike (.str s) (.str s)
  | arr {xs ys : List Json} : ItemsAlike xs ys → Alike (.arr xs) (.arr ys)
  | obj {ms ns : List (String × Json)} : MembersAlike ms ns → Alike (.obj ms) (.obj ns)

/-- There are as many items, and each is alike to the one in its place. -/
inductive ItemsAlike : List Json → List Json → Prop
  | nil : ItemsAlike [] []
  | cons {x y : Json} {xs ys : List Json} :
    Alike x y → ItemsAlike xs ys → ItemsAlike (x :: xs) (y :: ys)

/-- The keys are the same, in the same order, and the values of those that are not secret are alike. -/
inductive MembersAlike : List (String × Json) → List (String × Json) → Prop
  | nil : MembersAlike [] []
  | cons {k : String} {x y : Json} {ms ns : List (String × Json)} :
    (Secret.isSecretKey k = false → Alike x y) → MembersAlike ms ns →
      MembersAlike ((k, x) :: ms) ((k, y) :: ns)

end

/-- What stands under a key once the secrets are concealed. -/
def shown (k : String) (x : Json) : Json :=
  if Secret.isSecretKey k then .str Secret.placeholder else redact x

theorem shown_of_secret {k : String} (h : Secret.isSecretKey k = true) (x : Json) :
    shown k x = .str Secret.placeholder :=
  if_pos h

theorem shown_of_open {k : String} (h : Secret.isSecretKey k = false) (x : Json) :
    shown k x = redact x :=
  if_neg (by simp [h])

theorem redactItems_cons (x : Json) (xs : List Json) :
    redactItems (x :: xs) = redact x :: redactItems xs := rfl

theorem redactMembers_cons (k : String) (x : Json) (ms : List (String × Json)) :
    redactMembers ((k, x) :: ms) = (k, shown k x) :: redactMembers ms := rfl

theorem redactMembers_eq_map (ms : List (String × Json)) :
    redactMembers ms = ms.map fun m => (m.1, shown m.1 m.2) := by
  induction ms with
  | nil => rfl
  | cons m ms ih => rw [redactMembers_cons, ih, List.map_cons]

/-! ## A value and its redaction -/

mutual

theorem alike_redact : (j : Json) → Alike j (redact j)
  | .null => .null
  | .bool b => .bool b
  | .num n => .num n
  | .str s => .str s
  | .arr items => .arr (alike_redactItems items)
  | .obj members => .obj (alike_redactMembers members)

theorem alike_redactItems : (xs : List Json) → ItemsAlike xs (redactItems xs)
  | [] => .nil
  | x :: xs => .cons (alike_redact x) (alike_redactItems xs)

theorem alike_redactMembers : (ms : List (String × Json)) → MembersAlike ms (redactMembers ms)
  | [] => .nil
  | (k, x) :: ms => by
    refine .cons (fun hk => ?_) (alike_redactMembers ms)
    have hx := alike_redact x
    rwa [← shown_of_open hk] at hx

end

/-! ## Two values that are alike -/

mutual

theorem redact_eq_of_alike : {i j : Json} → Alike i j → redact i = redact j
  | _, _, .null | _, _, .bool _ | _, _, .num _ | _, _, .str _ => rfl
  | _, _, .arr h => congrArg Json.arr (redactItems_eq_of_alike h)
  | _, _, .obj h => congrArg Json.obj (redactMembers_eq_of_alike h)

theorem redactItems_eq_of_alike :
    {xs ys : List Json} → ItemsAlike xs ys → redactItems xs = redactItems ys
  | _, _, .nil => rfl
  | _, _, .cons hx hxs => by
    rw [redactItems_cons, redactItems_cons, redact_eq_of_alike hx, redactItems_eq_of_alike hxs]

theorem redactMembers_eq_of_alike :
    {ms ns : List (String × Json)} → MembersAlike ms ns → redactMembers ms = redactMembers ns
  | _, _, .nil => rfl
  | _, _, .cons (k := k) (x := x) (y := y) hx hms => by
    have hshown : shown k x = shown k y := by
      cases hk : Secret.isSecretKey k with
      | true => rw [shown_of_secret hk, shown_of_secret hk]
      | false => rw [shown_of_open hk, shown_of_open hk, redact_eq_of_alike (hx hk)]
    rw [redactMembers_cons, redactMembers_cons, hshown, redactMembers_eq_of_alike hms]

end

theorem redact_redact (j : Json) : redact (redact j) = redact j :=
  (redact_eq_of_alike (alike_redact j)).symm

theorem redactMembers_redactMembers (ms : List (String × Json)) :
    redactMembers (redactMembers ms) = redactMembers ms :=
  (redactMembers_eq_of_alike (alike_redactMembers ms)).symm

/-! ## The secret members of a redaction -/

section

variable {k : String} {v : Json}

mutual

theorem eq_placeholder_of_hasMember_redact (hk : Secret.isSecretKey k = true) :
    (j : Json) → Json.HasMember k v (redact j) → v = .str Secret.placeholder
  | .null, h | .bool _, h | .num _, h | .str _, h => by cases h
  | .arr items, h => by
    cases h with
    | item hx hm => exact eq_placeholder_of_hasMember_redactItems hk items hx hm
  | .obj members, h => eq_placeholder_of_hasMember_redactMembers hk members h

theorem eq_placeholder_of_hasMember_redactItems (hk : Secret.isSecretKey k = true) {x : Json} :
    (xs : List Json) → x ∈ redactItems xs → Json.HasMember k v x → v = .str Secret.placeholder
  | [], hx, _ => by cases hx
  | y :: ys, hx, hm => by
    rcases List.mem_cons.mp hx with rfl | hx
    · exact eq_placeholder_of_hasMember_redact hk y hm
    · exact eq_placeholder_of_hasMember_redactItems hk ys hx hm

theorem eq_placeholder_of_hasMember_redactMembers (hk : Secret.isSecretKey k = true) :
    (ms : List (String × Json)) → Json.HasMember k v (.obj (redactMembers ms)) →
      v = .str Secret.placeholder
  | [], h => by
    cases h with
    | here hm => cases hm
    | member hx _ => cases hx
  | (k', x) :: ms, h => by
    rw [redactMembers_cons] at h
    cases h with
    | here hm =>
      rcases List.mem_cons.mp hm with heq | hm
      · obtain ⟨rfl, rfl⟩ := Prod.mk.inj heq
        exact shown_of_secret hk x
      · exact eq_placeholder_of_hasMember_redactMembers hk ms (.here hm)
    | member hx hm =>
      rcases List.mem_cons.mp hx with heq | hx
      · obtain ⟨-, rfl⟩ := Prod.mk.inj heq
        -- What stands under a secret key is a text, which has no members.
        cases hk' : Secret.isSecretKey k' with
        | true => rw [shown_of_secret hk'] at hm; cases hm
        | false =>
          rw [shown_of_open hk'] at hm
          exact eq_placeholder_of_hasMember_redact hk x hm
      · exact eq_placeholder_of_hasMember_redactMembers hk ms (.member hx hm)

end

end

end Log

end CycleWatch
