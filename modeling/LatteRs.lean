import LatteRs.Window
import LatteRs.Invalidation
import LatteRs.StaleAnswers
import LatteRs.Formats
import LatteRs.Entitlements
import LatteRs.Setup
import LatteRs.Attempts
import LatteRs.FastPath
import LatteRs.Agreement
import LatteRs.Separation
import LatteRs.CacheFile
import LatteRs.Panics
import LatteRs.GraceFlag
import LatteRs.OwnRenewal
import LatteRs.Calendar
import LatteRs.Timestamps
import LatteRs.KeySegments
import LatteRs.FailedSaves
import LatteRs.ErrorReply
import LatteRs.Restarts
import LatteRs.Liveness
import LatteRs.HttpCalls
import LatteRs.Statements
import LatteRs.Requests
import LatteRs.CacheRecord
import LatteRs.PlatformId
import LatteRs.TypedKeys
import LatteRs.Verdicts
