import KeyLifecycle.User

/-!
# The directory of users

Users are looked up by number and by slug. Both look-ups are tables in which the newest entry
counts; the one by slug leads to a number and from there to a user, so a number that has been taken
over by another user leads to the new one.

A directory is begun with users who have their numbers. A user that is added gets the number after
the last one that was given out, or at first after the largest of theirs, and is refused if the slug
is taken. The number after the largest of all is the smallest of all.
-/

namespace KeyLifecycle

/-- The users that there are. -/
structure Directory where
  /-- The users, the newest first. -/
  users : List User
  /-- The number behind each slug, the newest first. -/
  index : List (Slug × UserId)
  /-- The number that was given out last; before the first, the largest of those who are there, and
  zero at least. -/
  lastId : Int64

namespace Directory

/-- Nobody. -/
def empty : Directory := ⟨[], [], 0⟩

/-- The user of a number. -/
def byId (d : Directory) (id : UserId) : Option User := d.users.find? (·.id = id)

/-- The number that is filed under a slug. -/
def filed (d : Directory) (slug : String) : Option UserId :=
  (d.index.find? (·.1.text = slug)).map (·.2)

/-- The user of a slug. -/
def bySlug (d : Directory) (slug : String) : Option User := (d.filed slug).bind d.byId

/-- Enters a user whose number is given. -/
def enter (d : Directory) (user : User) : Directory :=
  ⟨user :: d.users, (user.slug, user.id) :: d.index, max d.lastId user.id.value⟩

/-- The directory of some users, entered in order. -/
def ofUsers (users : List User) : Directory := users.foldl enter empty

/-- The failure of adding a slug that is there. -/
def taken (slug : Slug) : Failure :=
  .conflict ("User with slug '" ++ slug.text ++ "' already exists")

/-- Adds a user under the next number. -/
def add (d : Directory) (slug : Slug) (role : Role) : Except Failure (User × Directory) :=
  if (d.filed slug.text).isSome then .error (taken slug)
  else
    let user : User := ⟨⟨d.lastId + 1⟩, slug, role⟩
    .ok (user, { d.enter user with lastId := user.id.value })

end Directory

end KeyLifecycle
