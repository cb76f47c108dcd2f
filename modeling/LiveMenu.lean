import LiveMenu.Menu.Transparency
import LiveMenu.Menu.Staleness
import LiveMenu.Menu.PrintedCodes
import LiveMenu.Menu.Reachability
import LiveMenu.Menu.DishOrder
import LiveMenu.Writes.AcceptedBodies
import LiveMenu.Tenants.Isolation
import LiveMenu.Sessions.Ledger
import LiveMenu.Sessions.Rotation
import LiveMenu.Sessions.Logout
import LiveMenu.Menu.Positions
import LiveMenu.Menu.SoftDeletion
import LiveMenu.Menu.BoundedStaleness
import LiveMenu.Writes.FreeSlugs
import LiveMenu.Writes.CategoryDeletion
import LiveMenu.Writes.UniquenessRaces
import LiveMenu.Images.Isolation
import LiveMenu.Http.Quota
import LiveMenu.Analytics.Views
import LiveMenu.Menu.UnchangedNames
import LiveMenu.Writes.Toggles
import LiveMenu.Writes.Reorder
import LiveMenu.Dishes.Paging
import LiveMenu.Dishes.Search
import LiveMenu.Analytics.Tiling
import LiveMenu.Sessions.Passwords
import LiveMenu.Sessions.FailingCalls
import LiveMenu.Http.ValidationErrors
import LiveMenu.Sessions.SigningKeys
import LiveMenu.Images.Atomicity
import LiveMenu.Images.Deletion
import LiveMenu.Analytics.RoundTrip
import LiveMenu.Menu.SlugGrammar
import LiveMenu.Http.ClientAddress
import LiveMenu.Analytics.Visitors
import LiveMenu.Images.ObjectKeys
import LiveMenu.Menu.CacheHistory
import LiveMenu.Sessions.AccessTokens
import LiveMenu.Tenants.Noninterference
import LiveMenu.Dishes.Deletion
import LiveMenu.Dishes.Columns
import LiveMenu.Analytics.Recorded
import LiveMenu.Writes.AllOrNothing
import LiveMenu.Menu.Page
