import FeedClient.Text.Percent

/-!
# Paths of the service

The fixed paths of the service and the builders of paths with parameters. A login, a
search query or a service name is percent-encoded into its segment or query value. A cursor
(the last id seen, for paging) is added only when it is positive; a query id is added
whenever it is given; an offset only when it is positive.
-/

namespace FeedClient
namespace Route

/-- Signing in. -/
def authLogin : String := "/auth/login"
/-- Creating an account. -/
def registration : String := "/registration"
/-- Confirming an account. -/
def registrationConfirm : String := "/registration/confirm"
/-- Users. -/
def user : String := "/user"
/-- The signed-in user. -/
def userMe : String := "/user/me"
/-- Following a user. -/
def userFollow : String := "/user/follow"
/-- Unfollowing a user. -/
def userUnfollow : String := "/user/unfollow"
/-- Posts. -/
def post : String := "/post"
/-- Media files. -/
def media : String := "/media"

/-- The fixed paths with their names. -/
def constants : List (String × String) :=
  [("AUTH_LOGIN", authLogin), ("REGISTRATION", registration),
   ("REGISTRATION_CONFIRM", registrationConfirm), ("USER", user), ("USER_ME", userMe),
   ("USER_FOLLOW", userFollow), ("USER_UNFOLLOW", userUnfollow), ("POST", post),
   ("MEDIA", media)]

/-- Appends `?name=cursor` when the cursor is given and positive. -/
def withCursor (path name : String) (cursor : Option Int) : String :=
  match cursor with
  | some c => if c > 0 then path ++ "?" ++ name ++ "=" ++ toString c else path
  | none => path

/-- The profile of a user. -/
def profile (login : String) : String := user ++ "/" ++ Percent.encode login

/-- The followers of a user, after a cursor. -/
def followers (login : String) (cursor : Option Int) : String :=
  withCursor (user ++ "/" ++ Percent.encode login ++ "/followers") "lfid" cursor

/-- The users a user follows, after a cursor. -/
def following (login : String) (cursor : Option Int) : String :=
  withCursor (user ++ "/" ++ Percent.encode login ++ "/following") "lfid" cursor

/-- The posts of a user, after a cursor. -/
def userPosts (userId : Int) (cursor : Option Int) : String :=
  withCursor (post ++ "/user/" ++ toString userId) "lpid" cursor

/-- The feed of a user, after a cursor. -/
def feed (userId : Int) (cursor : Option Int) : String :=
  withCursor (post ++ "/feed/" ++ toString userId) "lpid" cursor

/-- A post search. -/
def search (query : String) (queryId : Option Int) (offset : Nat) : String :=
  let base := post ++ "/search?query=" ++ Percent.encode query
  let withId := match queryId with
    | some i => base ++ "&query_id=" ++ toString i
    | none => base
  if offset > 0 then withId ++ "&offset=" ++ toString offset else withId

/-- Media files of a service, by id. -/
def mediaFiles (service : String) (ids : List Int) : String :=
  media ++ "?service=" ++ Percent.encode service ++ "&ids=" ++
    Percent.encode (",".intercalate (ids.map toString))

end Route
end FeedClient
