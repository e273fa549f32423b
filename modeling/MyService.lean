import MyService.RateLimit.LoginRate
import MyService.Event.EventConsumer
import MyService.Event.Delivery
import MyService.Handlers.AddReply
import MyService.Handlers.ProjectKeys
import MyService.Handlers.Registration
import MyService.Storage.CommentIdentity
import MyService.Cache.Transparency
import MyService.Event.Codec
import MyService.Auth.Authenticity
import MyService.Auth.PasswordSecrecy
import MyService.Event.Agreement
import MyService.RateLimit.Quota
import MyService.Storage.Replies
import MyService.Storage.CommentSchema
import MyService.Handlers.Listings
import MyService.Storage.SearchMasks
import MyService.Storage.CommentCodec
import MyService.Event.Batch
import MyService.Event.ProcessedAt
import MyService.Handlers.TaskStatuses
import MyService.RateLimit.RetryAfter
import MyService.RateLimit.Rejections
import MyService.Handlers.FailedWrites
import MyService.Event.Timestamps
import MyService.Event.EventIds
import MyService.Handlers.PathIds
import MyService.Handlers.Serializability
import MyService.Handlers.Independence
import MyService.Handlers.StoredComments
import MyService.Storage.Integrity
import MyService.Event.Pipeline
import MyService.Auth.Session
import MyService.Handlers.AuthMiddleware
import MyService.Storage.InMemoryStorage
import MyService.Cache.Residency
import MyService.Handlers.Progress
