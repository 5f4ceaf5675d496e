import NewApi.User.Rows

/-!
# Login sessions and identities

The row of a login session, the record of a user as callers get it from the cache, and
the checks of an access token against both.
-/

namespace NewApi

/-- The status of a session. -/
inductive UserSessionStatus
  | active | revoking | revoked
deriving DecidableEq

/-- `UserSession`. -/
structure UserSession where
  sid : String
  (userID version userAuthVersion : Int)
  status : UserSessionStatus
  (refreshHash previousRefreshHash : String)
  (previousValidUntil lastActiveAt expiresAt revokedAt : Int)
  revokedReason : String
deriving DecidableEq

/-- The session is active and not over at a time, in seconds. -/
def UserSession.live (session : UserSession) (now : Int) : Bool :=
  session.status = .active && session.revokedAt = 0 && now < session.expiresAt

/-- `UserBase`. -/
structure UserBase where
  (group email : String)
  (quota status role : Int)
  (username setting : String)
  (authVersion cacheSchema : Int)
deriving DecidableEq

def userCacheSchemaVersion : Int := 2

/-- `ToBaseUser`. -/
def UserRow.toBaseUser (user : UserRow) : UserBase :=
  ⟨user.group, user.email, user.quota, user.status, user.role, user.username, user.setting,
    user.authVersion, userCacheSchemaVersion⟩

/-- The claims of an access token. -/
structure AuthIdentity where
  userID : Int
  sessionID : String
  (sessionVersion userAuthVersion : Int)
deriving DecidableEq

/-- `ValidateLoginSession`, on the session and the user it has read. -/
def validateLoginSession (identity : AuthIdentity) (session : UserSession) (now : Int)
    (user : UserBase) : Bool :=
  session.userID = identity.userID && session.live now &&
    session.version = identity.sessionVersion &&
    session.userAuthVersion = identity.userAuthVersion &&
    (user.status = userStatusEnabled && user.authVersion = identity.userAuthVersion)

end NewApi
